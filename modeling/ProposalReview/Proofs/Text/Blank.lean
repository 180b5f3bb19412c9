import Mathlib
import ProposalReview.Text.Blank
/-!
Blank characters and what trimming leaves.
-/

namespace ProposalReview.Text

variable {c : Char} {cs lead : List Char}

theorem ne_of_isBlank {d : Char} (hc : isBlank c) (hd : isBlank d = false) : c ≠ d := by
  rintro rfl
  rw [hc] at hd
  cases hd

/-- Letters and digits are not blank. -/
theorem isBlank_of_isAlphanum (h : c.isAlphanum) : isBlank c = false := by
  simp only [Char.isAlphanum, Char.isAlpha, Char.isUpper, Char.isLower, Char.isDigit,
    Bool.or_eq_true, Bool.and_eq_true, decide_eq_true_eq, UInt32.le_iff_toNat_le, ge_iff_le] at h
  change ((65 ≤ c.toNat ∧ c.toNat ≤ 90) ∨ (97 ≤ c.toNat ∧ c.toNat ≤ 122))
    ∨ (48 ≤ c.toNat ∧ c.toNat ≤ 57) at h
  simp only [isBlank, inRanges, blankRanges, List.any_cons, List.any_nil, Bool.or_false,
    Bool.or_eq_false_iff, Bool.and_eq_false_iff, decide_eq_false_iff_not]
  omega

theorem not_isDigit_of_isBlank (h : isBlank c) : ¬ c.isDigit := by
  intro hdigit
  rw [isBlank_of_isAlphanum (by rw [Char.isAlphanum, hdigit, Bool.or_true])] at h
  cases h

theorem allBlank_iff : allBlank cs ↔ ∀ c ∈ cs, isBlank c := List.all_eq_true

/-! ### Trimming -/

theorem trimStart_append (h : ∀ c ∈ lead, isBlank c) (cs : List Char) :
    trimStart (lead ++ cs) = trimStart cs := List.dropWhile_append_of_pos h

theorem trimStart_cons (h : isBlank c = false) (cs : List Char) : trimStart (c :: cs) = c :: cs :=
  List.dropWhile_cons_of_neg (by simp [h])

/-- What trimming takes off the start is blank. -/
theorem exists_trimStart (cs : List Char) :
    ∃ lead, (∀ c ∈ lead, isBlank c) ∧ cs = lead ++ trimStart cs :=
  ⟨cs.takeWhile isBlank, fun _ => List.mem_takeWhile_imp, List.takeWhile_append_dropWhile.symm⟩

theorem trimStart_eq_nil : trimStart cs = [] ↔ ∀ c ∈ cs, isBlank c := List.dropWhile_eq_nil_iff

/-- What is left is empty, or begins with a character that is not blank. -/
theorem head_trimStart {c : Char} {rest : List Char} (h : trimStart cs = c :: rest) :
    isBlank c = false := by
  have hhead := List.head?_dropWhile_not isBlank cs
  rwa [show cs.dropWhile isBlank = c :: rest from h, List.head?_cons] at hhead

theorem trim_eq_nil : trim cs = [] ↔ ∀ c ∈ cs, isBlank c := by
  rw [trim, trimEnd, List.reverse_eq_nil_iff, List.dropWhile_eq_nil_iff]
  simp only [List.mem_reverse]
  refine ⟨fun h => ?_, fun h => by simp [trimStart_eq_nil.mpr h]⟩
  rw [← trimStart_eq_nil]
  rcases htrim : trimStart cs with _ | ⟨c, rest⟩
  · rfl
  · have hblank := h c (by simp [htrim])
    simp [head_trimStart htrim] at hblank

theorem isEmpty_trimmed {s : String} : (trimmed s).isEmpty = true ↔ ∀ c ∈ s.toList, isBlank c := by
  rw [trimmed, String.isEmpty_iff, String.ofList_eq_empty_iff, trim_eq_nil]

theorem firstToken_eq_nil : firstToken cs = [] ↔ ∀ c ∈ cs, isBlank c := by
  rw [firstToken, ← trimStart_eq_nil]
  rcases htrim : trimStart cs with _ | ⟨c, rest⟩
  · simp
  · simp [head_trimStart htrim]

/-- What trimming takes off the end is blank. -/
theorem exists_trimEnd (cs : List Char) :
    ∃ tail, (∀ c ∈ tail, isBlank c) ∧ cs = trimEnd cs ++ tail := by
  obtain ⟨lead, hlead, hcs⟩ := exists_trimStart cs.reverse
  refine ⟨lead.reverse, fun c hc => hlead c (List.mem_reverse.mp hc), ?_⟩
  rw [trimEnd, ← List.reverse_append]
  exact List.reverse_eq_iff.mp hcs

theorem trimEnd_append {tail : List Char} (h : ∀ c ∈ tail, isBlank c) (cs : List Char) :
    trimEnd (cs ++ tail) = trimEnd cs := by
  rw [trimEnd, trimEnd, List.reverse_append,
    List.dropWhile_append_of_pos fun c hc => h c (List.mem_reverse.mp hc)]

theorem trimEnd_eq_self (h : ∀ c ∈ cs.getLast?, isBlank c = false) : trimEnd cs = cs := by
  rw [trimEnd, List.reverse_eq_iff]
  rcases hreverse : cs.reverse with _ | ⟨c, rest⟩
  · rfl
  · have hlast : cs.getLast? = some c := by rw [← List.head?_reverse, hreverse, List.head?_cons]
    exact trimStart_cons (h c hlast) rest

theorem getLast?_trimEnd : ∀ c ∈ (trimEnd cs).getLast?, isBlank c = false := by
  intro c hc
  rw [trimEnd, List.getLast?_reverse] at hc
  obtain ⟨rest, hrest⟩ := List.head?_eq_some_iff.mp hc
  exact head_trimStart hrest

/-- A text is another one between blanks, and that neither begins nor ends with a blank. -/
def Trims (cs v : List Char) : Prop :=
  ∃ lead tail, cs = lead ++ (v ++ tail) ∧ (∀ c ∈ lead, isBlank c) ∧ (∀ c ∈ tail, isBlank c) ∧
    (∀ c ∈ v.head?, isBlank c = false) ∧ ∀ c ∈ v.getLast?, isBlank c = false

theorem trim_eq_iff {v : List Char} : trim cs = v ↔ Trims cs v := by
  constructor
  · rintro rfl
    obtain ⟨lead, hlead, hcs⟩ := exists_trimStart cs
    obtain ⟨tail, htail, hstart⟩ := exists_trimEnd (trimStart cs)
    refine ⟨lead, tail, by rw [trim, ← hstart, ← hcs], hlead, htail, fun c hc => ?_,
      getLast?_trimEnd⟩
    obtain ⟨rest, hrest⟩ := List.head?_eq_some_iff.mp hc
    have hfirst : trimStart cs = c :: (rest ++ tail) := by
      rw [hstart, ← trim, hrest, List.cons_append]
    exact head_trimStart hfirst
  · rintro ⟨lead, tail, rfl, hlead, htail, hhead, hlast⟩
    rw [trim, trimStart_append hlead]
    cases v with
    | nil => rw [List.nil_append, trimStart_eq_nil.mpr htail]; rfl
    | cons c v =>
      rw [List.cons_append, trimStart_cons (hhead c rfl), ← List.cons_append, trimEnd_append htail,
        trimEnd_eq_self hlast]

/-- A text is, after blanks, a longest run of characters that are not blank, and a rest. -/
def BeginsWithToken (cs v : List Char) : Prop :=
  ∃ lead tail, cs = lead ++ (v ++ tail) ∧ (∀ c ∈ lead, isBlank c) ∧ (∀ c ∈ v, isBlank c = false) ∧
    ∀ c ∈ tail.head?, isBlank c

theorem firstToken_eq_iff {v : List Char} (hv : v ≠ []) :
    firstToken cs = v ↔ BeginsWithToken cs v := by
  constructor
  · rintro rfl
    obtain ⟨lead, hlead, hcs⟩ := exists_trimStart cs
    refine ⟨lead, (trimStart cs).dropWhile fun c => !isBlank c, ?_, hlead, fun c hc => ?_,
      fun c hc => ?_⟩
    · rw [firstToken, List.takeWhile_append_dropWhile, ← hcs]
    · simpa using List.mem_takeWhile_imp hc
    · simpa [Option.mem_def.mp hc] using
        List.head?_dropWhile_not (fun c => !isBlank c) (trimStart cs)
  · rintro ⟨lead, tail, rfl, hlead, htoken, htail⟩
    obtain ⟨c, v, rfl⟩ := List.exists_cons_of_ne_nil hv
    have hnone : tail.takeWhile (fun c => !isBlank c) = [] := by
      cases tail with
      | nil => rfl
      | cons d tail => exact List.takeWhile_cons_of_neg (by simp [htail d rfl])
    rw [firstToken, trimStart_append hlead, List.cons_append,
      trimStart_cons (htoken c List.mem_cons_self), ← List.cons_append,
      List.takeWhile_append_of_pos (by simpa using htoken), hnone, List.append_nil]

/-! ### Blanks around a text -/

theorem trim_blanks_append (h : ∀ c ∈ lead, isBlank c) (cs : List Char) :
    trim (lead ++ cs) = trim cs := by
  rw [trim, trimStart_append h, trim]

theorem trim_append {tail : List Char} (h : ∀ c ∈ tail, isBlank c) (cs : List Char) :
    trim (cs ++ tail) = trim cs := by
  obtain ⟨lead, after, hcs, hlead, hafter, hends⟩ := trim_eq_iff.mp (rfl : trim cs = trim cs)
  refine trim_eq_iff.mpr ⟨lead, after ++ tail, ?_, hlead, ?_, hends⟩
  · conv_lhs => rw [hcs]
    simp only [List.append_assoc]
  · exact List.forall_mem_append.mpr ⟨hafter, h⟩

theorem firstToken_append {tail : List Char} (h : ∀ c ∈ tail, isBlank c) (cs : List Char) :
    firstToken (cs ++ tail) = firstToken cs := by
  by_cases hnone : firstToken cs = []
  · rw [hnone]
    rw [firstToken_eq_nil] at hnone ⊢
    exact List.forall_mem_append.mpr ⟨hnone, h⟩
  · obtain ⟨lead, after, hcs, hlead, htoken, hafter⟩ := (firstToken_eq_iff hnone).mp rfl
    refine (firstToken_eq_iff hnone).mpr ⟨lead, after ++ tail, ?_, hlead, htoken, ?_⟩
    · conv_lhs => rw [hcs]
      simp only [List.append_assoc]
    · intro c hc
      rw [List.head?_append] at hc
      rcases Option.or_eq_some_iff.mp hc with hc | ⟨-, hc⟩
      · exact hafter c hc
      · exact h c (List.mem_of_head? hc)

end ProposalReview.Text
