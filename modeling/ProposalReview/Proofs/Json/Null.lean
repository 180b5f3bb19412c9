import ProposalReview.Json.Printer
import ProposalReview.Proofs.Calendar
import ProposalReview.Proofs.Decimal.Packing
/-!
Which figures are printed as null.

A finite float is printed with digits, signs, a point and an exponent mark, and never as null. So null
stands for a figure that is missing or not finite.
-/

namespace ProposalReview

namespace Decimal

variable {s : Style} {x : Float} {c : Char} {ds cs : List Char}

/-! ### The characters of a number -/

theorem isNumeric_of_mem_intDigits {n : Int} (h : c ∈ intDigits n) : IsNumeric c := by
  rcases n with n | n
  · exact isNumeric_of_mem_natDigits h
  · rcases List.mem_cons.mp h with rfl | h
    · decide
    · exact isNumeric_of_mem_natDigits h

theorem isNumeric_of_mem_significant {n : Nat} (h : c ∈ significant n) : IsNumeric c := by
  refine isNumeric_of_mem_natDigits (n := n) (List.mem_reverse.mp ?_)
  exact (List.dropWhile_sublist _).mem (List.mem_reverse.mp h)

theorem isNumeric_of_mem_withPoint (hds : ∀ c ∈ ds, IsNumeric c) {e : Int}
    (h : c ∈ withPoint ds e) : IsNumeric c := by
  have hzero : ∀ k, c ∈ List.replicate k '0' → IsNumeric c := by
    intro k hc
    rw [List.eq_of_mem_replicate hc]
    decide
  have hmark : ∀ m, IsNumeric m → c = m → IsNumeric c := by
    rintro _ hm rfl
    exact hm
  rcases e with n | n
  · rw [withPoint] at h
    split_ifs at h
    · simp only [List.append_assoc, List.mem_append, List.mem_cons, List.not_mem_nil, or_false] at h
      rcases h with h | h | h | h
      · exact hds c h
      · exact hzero _ h
      · exact hmark '.' (by decide) h
      · exact hmark '0' (by decide) h
    · simp only [List.mem_cons] at h
      rcases h with h | h | h
      · exact hmark '0' (by decide) h
      · exact hmark '.' (by decide) h
      · exact hds c h
    · simp only [List.mem_append, List.mem_cons] at h
      rcases h with h | h | h
      · exact hds c (List.mem_of_mem_take h)
      · exact hmark '.' (by decide) h
      · exact hds c (List.mem_of_mem_drop h)
  · simp only [withPoint, List.mem_cons, List.mem_append] at h
    rcases h with h | h | h | h
    · exact hmark '0' (by decide) h
    · exact hmark '.' (by decide) h
    · exact hzero _ h
    · exact hds c h

theorem isNumeric_of_mem_withExponent (hds : ∀ c ∈ ds, IsNumeric c) {plus : Bool} {e : Int}
    (h : c ∈ withExponent plus ds e) : IsNumeric c := by
  rw [withExponent.eq_def] at h
  rcases List.mem_append.mp h with h | h
  · rcases ds with _ | ⟨d, _ | ⟨d', rest⟩⟩
    · simp at h
    · exact hds c h
    · rcases List.mem_cons.mp h with rfl | h
      · exact hds _ (List.mem_cons_self ..)
      rcases List.mem_cons.mp h with rfl | h
      · decide
      · exact hds c (List.mem_cons_of_mem _ h)
  · rcases List.mem_cons.mp h with rfl | h
    · decide
    rcases List.mem_append.mp h with h | h
    · split_ifs at h
      · rw [List.mem_singleton.mp h]
        decide
      · simp at h
    · exact isNumeric_of_mem_intDigits h

theorem isNumeric_of_mem_signed (hcs : ∀ c ∈ cs, IsNumeric c) {negative : Bool}
    (h : c ∈ signed negative cs) : IsNumeric c := by
  rw [signed] at h
  split_ifs at h
  · rcases List.mem_cons.mp h with rfl | h
    · decide
    · exact hcs c h
  · exact hcs c h

/-- The text of a finite float is a number. -/
theorem isNumeric_of_mem_finite? (hcs : s.finite? x = some cs) (h : c ∈ cs) : IsNumeric c := by
  rw [Style.finite?] at hcs
  split at hcs
  · obtain rfl := Option.some.inj hcs
    have hmagnitude : ∀ m q, ∀ c ∈ s.magnitude m q, IsNumeric c := by
      intro m q c hc
      rw [Style.magnitude] at hc
      split_ifs at hc
      · simp only [List.mem_cons, List.not_mem_nil, or_false] at hc
        rcases hc with rfl | rfl | rfl <;> decide
      · rw [Style.layout] at hc
        split_ifs at hc
        · exact isNumeric_of_mem_withPoint (fun _ => isNumeric_of_mem_significant) hc
        · exact isNumeric_of_mem_withExponent (fun _ => isNumeric_of_mem_significant) hc
    exact isNumeric_of_mem_signed (hmagnitude _ _) h
  · cases hcs

/-! ### Which floats have a text -/

theorem finite?_isSome : (s.finite? x).isSome ↔ x.isFinite = true := by
  change _ ↔ x.toModel.unpack.isFinite = true
  rw [Style.finite?, ofFloat_eq]
  cases x.toModel.unpack <;> simp [Binary.ofUnpacked, Float.Model.UnpackedFloat.isFinite]

end Decimal

namespace Json

/-- A float is printed as null just when it is not finite. -/
theorem writeFloat_eq_null_iff {x : Float} :
    writeFloat x = ['n', 'u', 'l', 'l'] ↔ ¬ x.isFinite = true := by
  rw [← Decimal.finite?_isSome (s := floatStyle), writeFloat]
  rcases hcs : floatStyle.finite? x with _ | cs
  · simp
  · refine iff_of_false ?_ (by simp)
    rintro rfl
    exact absurd (Decimal.isNumeric_of_mem_finite? hcs (List.mem_cons_self ..)) (by decide)

/-- Whether an optional figure is printed as null, however deep it is nested. -/
def PrintsNull (k : Option Float) : Prop :=
  ∀ depth, (ofOption float k).writeIndented depth = ['n', 'u', 'l', 'l']

/-- An optional figure is printed as null just when it is missing or not finite. -/
theorem printsNull_iff {k : Option Float} :
    PrintsNull k ↔ ∀ x, k = some x → ¬ x.isFinite = true := by
  rcases k with _ | x
  · simp [PrintsNull, ofOption, writeIndented]
  · simpa [PrintsNull, ofOption, float, writeIndented, writeNumber] using writeFloat_eq_null_iff

end Json

end ProposalReview
