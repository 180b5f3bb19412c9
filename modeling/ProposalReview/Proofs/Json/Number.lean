import Mathlib
import ProposalReview.Json.Printer
import ProposalReview.Json.Reader
/-!
Reading a number stops where its text stops.

A number that is read out of a text is read the same with more text behind it, as long as that does not
go on with a digit, a point or an exponent.
-/

namespace ProposalReview.Json

variable {cs rest r : List Char} {j : Json} {negative : Bool} {value more : Nat} {exponent : Int}

/-- Whether a text can follow a value: it is over, or a comma or a closing bracket comes next. -/
def Closes (rest : List Char) : Prop := ∀ c ∈ rest.head?, c = ',' ∨ c = ']' ∨ c = '\x7d'

theorem closes_nil : Closes [] := by simp [Closes]

theorem Closes.isDigit_head {c : Char} (h : Closes (c :: cs)) : c.isDigit = false := by
  obtain rfl | rfl | rfl := h c rfl <;> rfl

/-- A mark inside a number at the head of a text and what may follow it is at the head of the text. -/
theorem Closes.ne_mark (h : Closes rest) {c : Char} (hc : c = '.' ∨ c = 'e' ∨ c = 'E')
    (hcs : ∀ after, cs = c :: after → False) {after : List Char} : cs ++ rest ≠ c :: after := by
  intro heq
  cases cs with
  | nil =>
    rw [List.nil_append] at heq
    have hclosing := h c (by simp [heq])
    rcases hc with rfl | rfl | rfl <;> simp at hclosing
  | cons d cs =>
    exact hcs cs (by rw [(List.cons.inj heq).1])

/-! ### Digits -/

theorem Closes.dropWhile_isDigit (h : Closes rest) : rest.dropWhile Char.isDigit = rest := by
  cases rest with
  | nil => rfl
  | cons c cs => exact List.dropWhile_cons_of_neg (by simp [h.isDigit_head])

theorem Closes.takeWhile_isDigit (h : Closes rest) : rest.takeWhile Char.isDigit = [] := by
  cases rest with
  | nil => rfl
  | cons c cs => exact List.takeWhile_cons_of_neg (by simp [h.isDigit_head])

theorem dropWhile_isDigit_append (h : Closes rest) (cs : List Char) :
    (cs ++ rest).dropWhile Char.isDigit = cs.dropWhile Char.isDigit ++ rest := by
  rw [List.dropWhile_append]
  split_ifs with hall
  · rw [List.isEmpty_iff.mp hall, h.dropWhile_isDigit, List.nil_append]
  · rfl

theorem takeWhile_isDigit_append (h : Closes rest) (cs : List Char) :
    (cs ++ rest).takeWhile Char.isDigit = cs.takeWhile Char.isDigit := by
  rw [List.takeWhile_append]
  split_ifs with hall
  · rw [h.takeWhile_isDigit, List.append_nil,
      (List.takeWhile_prefix Char.isDigit).eq_of_length hall]
  · rfl

theorem collect_append (h : Closes rest) (value : Nat) (cs : List Char) :
    collect value (cs ++ rest)
      = ((collect value cs).1, (collect value cs).2.1, (collect value cs).2.2 ++ rest) := by
  induction cs generalizing value with
  | nil =>
    cases rest with
    | nil => rfl
    | cons c cs => simp [collect, h.isDigit_head]
  | cons c cs ih =>
    simp only [List.cons_append, collect]
    split_ifs with hdigit hlimit
    · rw [← List.cons_append, takeWhile_isDigit_append h, dropWhile_isDigit_append h]
    · exact ih _
    · rfl

theorem collectFraction_append (h : Closes rest) (value count : Nat) (cs : List Char) :
    collectFraction value count (cs ++ rest)
      = ((collectFraction value count cs).1, (collectFraction value count cs).2.1,
        (collectFraction value count cs).2.2 ++ rest) := by
  induction cs generalizing value count with
  | nil =>
    cases rest with
    | nil => rfl
    | cons c cs => simp [collectFraction, h.isDigit_head]
  | cons c cs ih =>
    simp only [List.cons_append, collectFraction]
    split_ifs with hdigit hlimit
    · rw [← List.cons_append, dropWhile_isDigit_append h]
    · exact ih _ _
    · rfl

theorem collectExponent_append (h : Closes rest) (value : Nat) (cs : List Char) :
    collectExponent value (cs ++ rest)
      = ((collectExponent value cs).1, (collectExponent value cs).2 ++ rest) := by
  induction cs generalizing value with
  | nil =>
    cases rest with
    | nil => rfl
    | cons c cs => simp [collectExponent, h.isDigit_head]
  | cons c cs ih =>
    simp only [List.cons_append, collectExponent]
    split_ifs with hdigit hlimit
    · rfl
    · exact ih _
    · rfl

/-! ### The parts of a number -/

theorem finishFloat_append (hread : finishFloat negative value exponent cs = .ok (j, r)) :
    finishFloat negative value exponent (cs ++ rest) = .ok (j, r ++ rest) := by
  simp only [finishFloat] at hread ⊢
  cases hscaled : scaled? value exponent with
  | none => simp [hscaled] at hread
  | some x =>
    simp only [hscaled, Except.ok.injEq, Prod.mk.injEq] at hread
    obtain ⟨rfl, rfl⟩ := hread
    rfl

theorem takeSign_append {c : Char} :
    Decimal.takeSign (c :: cs ++ rest)
      = ((Decimal.takeSign (c :: cs)).1, (Decimal.takeSign (c :: cs)).2 ++ rest) := by
  simp only [List.cons_append, Decimal.takeSign]
  split <;> simp_all

theorem readExponent_append (h : Closes rest)
    (hread : readExponent negative value exponent cs = .ok (j, r)) :
    readExponent negative value exponent (cs ++ rest) = .ok (j, r ++ rest) := by
  obtain _ | ⟨c, cs⟩ := cs
  · simp [readExponent, Decimal.takeSign] at hread
  rw [readExponent, takeSign_append]
  rw [readExponent] at hread
  generalize Decimal.takeSign (c :: cs) = signed at hread ⊢
  obtain ⟨down, _ | ⟨d, ds⟩⟩ := signed
  · cases hread
  by_cases hdigit : d.isDigit
  · simp only [List.cons_append, if_pos hdigit] at hread ⊢
    rw [← List.cons_append, collectExponent_append h]
    generalize collectExponent 0 (d :: ds) = collected at hread ⊢
    obtain ⟨_ | n, after⟩ := collected
    · by_cases hrange : value ≠ 0 ∧ ¬ down
      · simp only [if_pos hrange, reduceCtorEq] at hread
      · simp only [if_neg hrange, Except.ok.injEq, Prod.mk.injEq] at hread ⊢
        exact ⟨hread.1, by rw [dropWhile_isDigit_append h, hread.2]⟩
    · exact finishFloat_append hread
  · simp only [if_neg hdigit, reduceCtorEq] at hread

theorem readScale_append (h : Closes rest)
    (hread : readScale negative value exponent cs = .ok (j, r)) :
    readScale negative value exponent (cs ++ rest) = .ok (j, r ++ rest) := by
  unfold readScale at hread
  split at hread
  · exact readExponent_append h hread
  · exact readExponent_append h hread
  · next hlower hupper =>
    have hscale : readScale negative value exponent (cs ++ rest)
        = finishFloat negative value exponent (cs ++ rest) := by
      unfold readScale
      split
      · next htext => exact (h.ne_mark (.inr (.inl rfl)) hlower htext).elim
      · next htext => exact (h.ne_mark (.inr (.inr rfl)) hupper htext).elim
      · rfl
    rw [hscale]
    exact finishFloat_append hread

theorem readFraction_append (h : Closes rest)
    (hread : readFraction negative value exponent cs = .ok (j, r)) :
    readFraction negative value exponent (cs ++ rest) = .ok (j, r ++ rest) := by
  obtain _ | ⟨c, cs⟩ := cs
  · cases hread
  simp only [readFraction, List.cons_append] at hread ⊢
  by_cases hdigit : c.isDigit
  · rw [if_pos hdigit] at hread ⊢
    rw [← List.cons_append, collectFraction_append h]
    exact readScale_append h hread
  · simp only [if_neg hdigit, reduceCtorEq] at hread

theorem readTail_append (h : Closes rest) (hread : readTail negative value more cs = .ok (j, r)) :
    readTail negative value more (cs ++ rest) = .ok (j, r ++ rest) := by
  unfold readTail at hread
  split at hread
  · exact readFraction_append h hread
  · exact readExponent_append h hread
  · exact readExponent_append h hread
  · next hpoint hlower hupper =>
    have htail : readTail negative value more (cs ++ rest)
        = if more = 0 then .ok (wholeNumber negative value, cs ++ rest)
          else finishFloat negative value more (cs ++ rest) := by
      unfold readTail
      split
      · next htext => exact (h.ne_mark (.inl rfl) hpoint htext).elim
      · next htext => exact (h.ne_mark (.inr (.inl rfl)) hlower htext).elim
      · next htext => exact (h.ne_mark (.inr (.inr rfl)) hupper htext).elim
      · rfl
    rw [htail]
    by_cases hmore : more = 0
    · rw [if_pos hmore] at hread ⊢
      cases hread
      rfl
    · rw [if_neg hmore] at hread ⊢
      exact finishFloat_append hread

theorem readNumber_append (h : Closes rest) (hread : readNumber negative cs = .ok (j, r)) :
    readNumber negative (cs ++ rest) = .ok (j, r ++ rest) := by
  obtain _ | ⟨c, cs⟩ := cs
  · cases hread
  simp only [readNumber, List.cons_append] at hread ⊢
  by_cases hzero : c = '0'
  · rw [if_pos hzero] at hread ⊢
    obtain _ | ⟨d, ds⟩ := cs
    · have hrest := readTail_append h hread
      obtain _ | ⟨d, ds⟩ := rest
      · exact hrest
      · simpa [h.isDigit_head] using hrest
    · simp only [List.cons_append] at hread ⊢
      by_cases hdigit : d.isDigit
      · simp only [if_pos hdigit, reduceCtorEq] at hread
      · rw [if_neg hdigit] at hread ⊢
        exact readTail_append h hread
  · rw [if_neg hzero] at hread ⊢
    by_cases hdigit : c.isDigit
    · rw [if_pos hdigit] at hread ⊢
      rw [← List.cons_append, collect_append h]
      exact readTail_append h hread
    · simp only [if_neg hdigit, reduceCtorEq] at hread

end ProposalReview.Json
