import Mathlib
import ProposalReview.Text.Blank
import ProposalReview.Text.Lines
/-!
How a text falls into lines.

Every line but the last is ended, by LF or by CR LF, and no line holds LF. There is one such way to take a
text apart. A CR that no LF follows is part of its line, and of two before an LF so is the first. Between
its line feeds a text falls into pieces, which hold the returns too, so that the text can be told from them.
-/

namespace ProposalReview.Text

/-! ### Marks -/

section

variable {α : Type} {x : α} {sep as as' bs bs' : List α}

/-- A list is parted at the first mark in it. -/
theorem append_cons_inj (h : x ∉ as) (h' : x ∉ as') (heq : as ++ x :: bs = as' ++ x :: bs') :
    as = as' ∧ bs = bs' := by
  induction as generalizing as' with
  | nil =>
    cases as' with
    | nil => exact ⟨rfl, List.cons_injective heq⟩
    | cons a as' => exact absurd (List.cons.inj heq).1 (List.ne_of_not_mem_cons h')
  | cons a as ih =>
    cases as' with
    | nil => exact absurd (List.cons.inj heq).1.symm (List.ne_of_not_mem_cons h)
    | cons a' as' =>
      rw [List.cons_append, List.cons_append] at heq
      obtain ⟨rfl, htail⟩ := List.cons.inj heq
      obtain ⟨rfl, rfl⟩ := ih (List.not_mem_of_not_mem_cons h) (List.not_mem_of_not_mem_cons h') htail
      exact ⟨rfl, rfl⟩

theorem intercalate_cons (sep as : List α) (more : List (List α)) :
    sep.intercalate (as :: more) = as ++ more.flatMap (sep ++ ·) := by
  induction more generalizing as with
  | nil => simp
  | cons bs more ih =>
    rw [List.intercalate_cons_cons, ih, List.flatMap_cons, List.append_assoc, List.append_assoc]

theorem not_mem_intercalate {parts : List (List α)} (hsep : x ∉ sep) (hparts : ∀ cs ∈ parts, x ∉ cs) :
    x ∉ sep.intercalate parts := by
  cases parts with
  | nil => exact List.not_mem_nil
  | cons as more =>
    obtain ⟨has, hmore⟩ := List.forall_mem_cons.mp hparts
    rw [intercalate_cons, List.mem_append, List.mem_flatMap]
    rintro (h | ⟨bs, hbs, h⟩)
    · exact has h
    · exact (List.mem_append.mp h).elim hsep (hmore bs hbs)

/-- Parts can be told from their whole if none of them holds the mark that a separator begins with. -/
theorem intercalate_inj {parts parts' : List (List α)} (hne : parts ≠ []) (hne' : parts' ≠ [])
    (h : ∀ cs ∈ parts, x ∉ cs) (h' : ∀ cs ∈ parts', x ∉ cs)
    (heq : (x :: sep).intercalate parts = (x :: sep).intercalate parts') : parts = parts' := by
  obtain ⟨as, more, rfl⟩ := List.exists_cons_of_ne_nil hne
  obtain ⟨as', more', rfl⟩ := List.exists_cons_of_ne_nil hne'
  rw [intercalate_cons, intercalate_cons] at heq
  clear hne hne'
  induction more generalizing as as' more' with
  | nil =>
    cases more' with
    | nil => simpa using heq
    | cons bs' more' =>
      rw [List.flatMap_nil, List.append_nil] at heq
      exact absurd (by simp [heq]) (h as List.mem_cons_self)
  | cons bs more ih =>
    cases more' with
    | nil =>
      rw [List.flatMap_nil, List.append_nil] at heq
      exact absurd (by simp [← heq]) (h' as' List.mem_cons_self)
    | cons bs' more' =>
      obtain ⟨has, hmore⟩ := List.forall_mem_cons.mp h
      obtain ⟨has', hmore'⟩ := List.forall_mem_cons.mp h'
      simp only [List.flatMap_cons, List.cons_append, List.append_assoc] at heq
      obtain ⟨rfl, hrest⟩ := append_cons_inj has has' heq
      rw [ih bs hmore bs' more' hmore' (List.append_cancel_left hrest)]

end

/-! ### Texts and their lines -/

/-- A text falls into lines, of which the last is empty if an LF ends the text. The three forms exclude
each other: what LF alone ends is not also ended by CR LF. -/
inductive Splits : List Char → List (List Char) → Prop
  | last {line : List Char} (h : '\n' ∉ line) : Splits line [line]
  | feed {line rest : List Char} {ls : List (List Char)} (h : '\n' ∉ line)
      (hreturn : line.getLast? ≠ some '\r') (hrest : Splits rest ls) :
      Splits (line ++ '\n' :: rest) (line :: ls)
  | returnFeed {line rest : List Char} {ls : List (List Char)} (h : '\n' ∉ line)
      (hrest : Splits rest ls) : Splits (line ++ '\r' :: '\n' :: rest) (line :: ls)

variable {text line rest p : List Char} {ls ps : List (List Char)}

/-- No line holds the end of a line. -/
theorem Splits.not_mem (h : Splits text ls) : ∀ line ∈ ls, '\n' ∉ line := by
  induction h with
  | last h => simpa using h
  | feed h _ _ ih => exact List.forall_mem_cons.mpr ⟨h, ih⟩
  | returnFeed h _ ih => exact List.forall_mem_cons.mpr ⟨h, ih⟩

/-! ### Pieces -/

theorem pieces_ne_nil (cs : List Char) : pieces cs ≠ [] := by
  cases cs with
  | nil => simp [pieces]
  | cons c cs =>
    rw [pieces]
    split_ifs
    · simp
    · split <;> simp

/-- What stands before a text begins its first piece. -/
theorem pieces_append_left (h : '\n' ∉ p) (hrest : pieces rest = line :: ps) :
    pieces (p ++ rest) = (p ++ line) :: ps := by
  induction p with
  | nil => exact hrest
  | cons c p ih =>
    obtain ⟨hc, hp⟩ := not_or.mp (mt List.mem_cons.mpr h)
    rw [List.cons_append, pieces, if_neg (Ne.symm hc), ih hp, List.cons_append]

theorem pieces_of_not_mem (h : '\n' ∉ p) : pieces p = [p] := by
  simpa using pieces_append_left h (rfl : pieces [] = [[]])

/-- A line feed between two texts parts the pieces of one from those of the other. -/
theorem pieces_append_feed (cs rest : List Char) :
    pieces (cs ++ '\n' :: rest) = pieces cs ++ pieces rest := by
  induction cs with
  | nil => rfl
  | cons c cs ih =>
    obtain ⟨q, qs, hcs⟩ := List.exists_cons_of_ne_nil (pieces_ne_nil cs)
    rw [List.cons_append, pieces, pieces, ih]
    split_ifs
    · rfl
    · rw [hcs]
      rfl

theorem pieces_append (h : '\n' ∉ p) (rest : List Char) :
    pieces (p ++ '\n' :: rest) = p :: pieces rest := by
  rw [pieces_append_feed, pieces_of_not_mem h, List.singleton_append]

/-- Lines with a line feed after each. -/
def unlines (ls : List (List Char)) : List Char := ls.flatMap (· ++ ['\n'])

@[simp] theorem unlines_nil : unlines [] = [] := rfl

@[simp] theorem unlines_cons (line : List Char) (ls : List (List Char)) :
    unlines (line :: ls) = line ++ '\n' :: unlines ls := by
  simp [unlines]

theorem pieces_unlines_append (h : ∀ line ∈ ls, '\n' ∉ line) (rest : List Char) :
    pieces (unlines ls ++ rest) = ls ++ pieces rest := by
  induction ls with
  | nil => rfl
  | cons line ls ih =>
    obtain ⟨hline, hls⟩ := List.forall_mem_cons.mp h
    rw [unlines_cons, List.append_assoc, List.cons_append, pieces_append hline, ih hls, List.cons_append]

theorem pieces_unlines (h : ∀ line ∈ ls, '\n' ∉ line) : pieces (unlines ls) = ls ++ [[]] := by
  simpa [pieces] using pieces_unlines_append h []

/-- A text is its pieces with line feeds between them. -/
theorem intercalate_pieces (cs : List Char) : ['\n'].intercalate (pieces cs) = cs := by
  induction cs with
  | nil => rfl
  | cons c cs ih =>
    obtain ⟨q, qs, hcs⟩ := List.exists_cons_of_ne_nil (pieces_ne_nil cs)
    rw [hcs] at ih
    rw [pieces, hcs]
    split_ifs with hc
    · rw [List.intercalate_cons_cons, ih, hc]
      rfl
    · cases qs with
      | nil => simpa using ih
      | cons r rs => simpa using ih

theorem pieces_injective : Function.Injective pieces :=
  Function.LeftInverse.injective intercalate_pieces

theorem suffix_of_getLast?_pieces {cs : List Char} (h : (pieces cs).getLast? = some p) : p <:+ cs := by
  induction cs with
  | nil =>
    rw [← Option.some_inj.mp h]
    exact List.suffix_rfl
  | cons c cs ih =>
    obtain ⟨q, qs, hcs⟩ := List.exists_cons_of_ne_nil (pieces_ne_nil cs)
    rw [hcs] at ih
    rw [pieces, hcs] at h
    split_ifs at h
    · exact (ih (by simpa using h)).trans (List.suffix_cons c cs)
    · cases qs with
      | nil =>
        have hq : q = cs := by simpa [hcs] using intercalate_pieces cs
        rw [← Option.some_inj.mp h, hq]
        exact List.suffix_rfl
      | cons r rs => exact (ih (by simpa using h)).trans (List.suffix_cons c cs)

theorem length_pieces (cs : List Char) : (pieces cs).length = cs.count '\n' + 1 := by
  induction cs with
  | nil => rfl
  | cons c cs ih =>
    obtain ⟨q, qs, hcs⟩ := List.exists_cons_of_ne_nil (pieces_ne_nil cs)
    rw [hcs, List.length_cons, Nat.add_right_cancel_iff] at ih
    rw [pieces, hcs]
    split_ifs with hc
    · simp [hc, ih]
    · simp [hc, ih]

/-! ### Ends of lines -/

theorem dropReturn_append (p : List Char) : dropReturn (p ++ ['\r']) = p := by
  induction p with
  | nil => rfl
  | cons c p ih =>
    cases p with
    | nil => rfl
    | cons d p => exact congrArg (c :: ·) ih

theorem dropReturn_of_getLast? (h : p.getLast? ≠ some '\r') : dropReturn p = p := by
  induction p with
  | nil => rfl
  | cons c p ih =>
    cases p with
    | nil => exact if_neg (by simpa using h)
    | cons d p => exact congrArg (c :: ·) (ih (by simpa using h))

/-- Whether a text holds neither of the characters that may end a line. -/
def Unbroken (cs : List Char) : Prop := '\n' ∉ cs ∧ '\r' ∉ cs

instance : DecidablePred Unbroken := fun _ => inferInstanceAs (Decidable (_ ∧ _))

@[simp] theorem unbroken_append {as bs : List Char} :
    Unbroken (as ++ bs) ↔ Unbroken as ∧ Unbroken bs := by
  simp only [Unbroken, List.mem_append, not_or]
  tauto

theorem Unbroken.intercalate {sep : List Char} (hsep : Unbroken sep) (hps : ∀ cs ∈ ps, Unbroken cs) :
    Unbroken (sep.intercalate ps) :=
  ⟨not_mem_intercalate hsep.1 fun cs hcs => (hps cs hcs).1,
    not_mem_intercalate hsep.2 fun cs hcs => (hps cs hcs).2⟩

theorem Unbroken.dropReturn (h : Unbroken line) : dropReturn line = line :=
  dropReturn_of_getLast? fun hlast => h.2 (List.mem_of_getLast? hlast)

theorem endLines_cons (h : ps ≠ []) : endLines (p :: ps) = dropReturn p :: endLines ps := by
  cases ps with
  | nil => exact absurd rfl h
  | cons q ps => rfl

/-- Only the last piece is not ended. -/
theorem endLines_append (h : ps ≠ []) (qs : List (List Char)) :
    endLines (qs ++ ps) = qs.map dropReturn ++ endLines ps := by
  induction qs with
  | nil => rfl
  | cons q qs ih =>
    rw [List.cons_append, endLines_cons (List.append_ne_nil_of_right_ne_nil _ h), ih]
    rfl

/-- All lines of a text are pieces without their returns, if it does not end in a return of its own. -/
theorem lines_eq_map {cs : List Char} (h : cs.getLast? ≠ some '\r') :
    lines cs = (pieces cs).map dropReturn := by
  obtain ⟨ps, last, hpieces⟩ := (List.eq_nil_or_concat' (pieces cs)).resolve_left (pieces_ne_nil cs)
  have hsuffix : last <:+ cs := suffix_of_getLast?_pieces (by rw [hpieces, List.getLast?_concat])
  have hlast : last.getLast? ≠ some '\r' := by
    intro hreturn
    obtain ⟨before, rfl⟩ := List.getLast?_eq_some_iff.mp hreturn
    obtain ⟨more, rfl⟩ := hsuffix
    exact h (by simp)
  rw [lines, hpieces, endLines_append (by simp), List.map_append, List.map_singleton,
    dropReturn_of_getLast? hlast]
  rfl

theorem length_endLines (ps : List (List Char)) : (endLines ps).length = ps.length := by
  induction ps with
  | nil => rfl
  | cons p ps ih =>
    cases ps with
    | nil => rfl
    | cons q ps => exact congrArg Nat.succ ih

theorem length_lines (cs : List Char) : (lines cs).length = cs.count '\n' + 1 := by
  rw [lines, length_endLines, length_pieces]

theorem lines_of_not_mem (h : '\n' ∉ p) : lines p = [p] := by
  rw [lines, pieces_of_not_mem h]
  rfl

theorem lines_append (h : '\n' ∉ p) (rest : List Char) :
    lines (p ++ '\n' :: rest) = dropReturn p :: lines rest := by
  rw [lines, pieces_append h, endLines_cons (pieces_ne_nil rest)]
  rfl

/-! ### Lines -/

theorem Splits.lines_eq (h : Splits text ls) : lines text = ls := by
  induction h with
  | last h => exact lines_of_not_mem h
  | feed h hreturn _ ih => rw [lines_append h, dropReturn_of_getLast? hreturn, ih]
  | @returnFeed line rest _ h _ ih =>
    have hpiece : '\n' ∉ line ++ ['\r'] := by simp [h]
    rw [← List.singleton_append (l := '\n' :: rest), ← List.append_assoc, lines_append hpiece,
      dropReturn_append, ih]

/-- The lines of a text are found from its start on, one after each LF. -/
theorem splits_lines (text : List Char) : Splits text (lines text) := by
  induction hlength : text.length using Nat.strong_induction_on generalizing text with
  | _ n ih =>
    by_cases hfeed : '\n' ∈ text
    · obtain ⟨p, rest, rfl, hp⟩ := List.eq_append_cons_of_mem hfeed
      have hrest : Splits rest (lines rest) := ih rest.length (by simp at hlength; omega) rest rfl
      rw [lines_append hp]
      by_cases hreturn : p.getLast? = some '\r'
      · obtain ⟨line, rfl⟩ := List.getLast?_eq_some_iff.mp hreturn
        rw [dropReturn_append, List.append_assoc]
        exact .returnFeed (fun hline => hp (List.mem_append_left _ hline)) hrest
      · rw [dropReturn_of_getLast? hreturn]
        exact .feed hp hreturn hrest
    · rw [lines_of_not_mem hfeed]
      exact .last hfeed

/-- There is one way in which a text falls into lines. -/
theorem splits_iff : Splits text ls ↔ lines text = ls :=
  ⟨Splits.lines_eq, fun h => h ▸ splits_lines text⟩

/-! ### Two texts with an LF between them -/

/-- A line is what is left of it without its return, and a blank end. -/
theorem exists_dropReturn (line : List Char) :
    ∃ tail, (∀ c ∈ tail, isBlank c) ∧ line = dropReturn line ++ tail := by
  by_cases hreturn : line.getLast? = some '\r'
  · obtain ⟨p, rfl⟩ := List.getLast?_eq_some_iff.mp hreturn
    have hblank : isBlank '\r' := by decide
    exact ⟨['\r'], by simpa using hblank, by rw [dropReturn_append]⟩
  · exact ⟨[], by simp, by rw [dropReturn_of_getLast? hreturn, List.append_nil]⟩

/-- The lines of both texts are those of the whole, except that the LF between them may also take a
return from the last line of the first text. -/
theorem lines_append_feed (text rest : List Char) : ∃ ls last, lines text = ls ++ [last] ∧
    lines (text ++ '\n' :: rest) = ls ++ dropReturn last :: lines rest := by
  obtain ⟨ps, last, hpieces⟩ :=
    (List.eq_nil_or_concat' (pieces text)).resolve_left (pieces_ne_nil text)
  refine ⟨ps.map dropReturn, last, ?_, ?_⟩
  · rw [lines, hpieces, endLines_append (by simp)]
    rfl
  · rw [lines, pieces_append_feed, endLines_append (pieces_ne_nil rest), hpieces]
    simp [lines]

theorem lines_append_feed_of_getLast? (h : text.getLast? ≠ some '\r') (rest : List Char) :
    lines (text ++ '\n' :: rest) = lines text ++ lines rest := by
  rw [lines, pieces_append_feed, endLines_append (pieces_ne_nil rest), lines_eq_map h, lines]

theorem lines_unlines_append (h : ∀ line ∈ ls, Unbroken line) (rest : List Char) :
    lines (unlines ls ++ rest) = ls ++ lines rest := by
  have hreturns : ls.map dropReturn = ls :=
    (List.map_congr_left fun line hline => (h line hline).dropReturn).trans (List.map_id ls)
  rw [lines, pieces_unlines_append fun line hline => (h line hline).1,
    endLines_append (pieces_ne_nil rest), hreturns, lines]

theorem lines_unlines (h : ∀ line ∈ ls, Unbroken line) : lines (unlines ls) = ls ++ [[]] := by
  have hempty : lines [] = [[]] := rfl
  simpa [hempty] using lines_unlines_append h []

example : lines "a\r\r\nb\rc\n".toList = ["a\r".toList, "b\rc".toList, []] := by decide

end ProposalReview.Text
