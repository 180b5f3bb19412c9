import Mathlib
/-!
Comparisons of floats.

Each number has a rank, and numbers are compared by their ranks, so their comparisons are those of a
linear order; the two zeros share a rank. With what is no number every comparison fails. So where one
comparison fails, the opposite one need not hold: a rule that refuses what is above a bound lets through
what cannot be compared with it, and a rule that asks for what is at most the bound does not.

    x < y   x ≤ y   y ≤ x
    yes     yes     no
    no      yes     yes      equal, or zeros
    no      no      yes
    no      no      no       x or y is no number
-/

namespace ProposalReview.Decimal

open Float.Model Float.Model.UnpackedFloat

variable {x y z : Float} {a b : UnpackedFloat}

/-! ### Ranks -/

/-- Where a value stands among all numbers: the sign and whether it is infinite come first, then the
exponent, then the mantissa, both of which count downwards below zero. -/
def rank : UnpackedFloat → ℤ ×ₗ ℤ ×ₗ ℤ
  | .infinity .negative => toLex (-2, toLex (0, 0))
  | .finite .negative m e _ => toLex (-1, toLex (-e, -m))
  | .finite .positive m e _ => toLex (1, toLex (e, m))
  | .infinity .positive => toLex (2, toLex (0, 0))
  | _ => toLex (0, toLex (0, 0))

theorem compare_eq_none_iff : a.compare b = none ↔ a.isNaN ∨ b.isNaN := by
  rcases a with (_ | _) | _ | s | ⟨_ | _, m, e, hm⟩ <;>
    rcases b with (_ | _) | _ | t | ⟨_ | _, m', e', hm'⟩ <;>
    simp [UnpackedFloat.compare, UnpackedFloat.isNaN]

theorem compare_signs : compare Sign.negative Sign.positive = .lt ∧
    compare Sign.negative Sign.negative = .eq ∧ compare Sign.positive Sign.positive = .eq :=
  ⟨rfl, rfl, rfl⟩

theorem compare_eq_lt_iff_rank (ha : a.isNaN = false) (hb : b.isNaN = false) :
    a.compare b = some .lt ↔ rank a < rank b := by
  rcases a with (_ | _) | _ | s | ⟨_ | _, m, e, hm⟩ <;>
    rcases b with (_ | _) | _ | t | ⟨_ | _, m', e', hm'⟩ <;>
    simp_all [UnpackedFloat.compare, UnpackedFloat.isNaN, rank, Prod.Lex.toLex_lt_toLex,
      Ordering.then_eq_lt, Ordering.then_eq_gt, Int.compare_eq_lt, Int.compare_eq_gt,
      Nat.compare_eq_lt, Nat.compare_eq_gt, compare_signs]

theorem compare_eq_eq_iff_rank (ha : a.isNaN = false) (hb : b.isNaN = false) :
    a.compare b = some .eq ↔ rank a = rank b := by
  rcases a with (_ | _) | _ | s | ⟨_ | _, m, e, hm⟩ <;>
    rcases b with (_ | _) | _ | t | ⟨_ | _, m', e', hm'⟩ <;>
    simp_all [UnpackedFloat.compare, UnpackedFloat.isNaN, rank, Ordering.then_eq_eq, compare_signs]

/-! ### Comparisons of floats -/

theorem lt_iff_compare :
    x < y ↔ x.toModel.unpack.compare y.toModel.unpack = some .lt := by
  change decide (x.toModel.unpack.lt y.toModel.unpack = true) = true ↔ _
  rw [decide_eq_true_iff, UnpackedFloat.lt, beq_iff_eq]

theorem le_iff_compare :
    x ≤ y ↔ x.toModel.unpack.compare y.toModel.unpack = some .lt ∨
      x.toModel.unpack.compare y.toModel.unpack = some .eq := by
  change decide (x.toModel.unpack.le y.toModel.unpack = true) = true ↔ _
  rw [decide_eq_true_iff, UnpackedFloat.le]
  rcases x.toModel.unpack.compare y.toModel.unpack with _ | _ | _ | _ <;> simp

theorem isNaN_of_compare {o : Ordering} (h : x.toModel.unpack.compare y.toModel.unpack = some o) :
    x.isNaN = false ∧ y.isNaN = false := by
  have hnone : ¬ (x.toModel.unpack.isNaN ∨ y.toModel.unpack.isNaN) := by
    rw [← compare_eq_none_iff, h]
    simp
  rw [not_or, Bool.not_eq_true, Bool.not_eq_true] at hnone
  exact hnone

/-- Of two floats the one is less just when both are numbers and its rank is less. -/
theorem lt_iff_rank : x < y ↔ x.isNaN = false ∧ y.isNaN = false ∧
    rank x.toModel.unpack < rank y.toModel.unpack := by
  rw [lt_iff_compare]
  constructor
  · intro h
    obtain ⟨hx, hy⟩ := isNaN_of_compare h
    exact ⟨hx, hy, (compare_eq_lt_iff_rank hx hy).mp h⟩
  · rintro ⟨hx, hy, h⟩
    exact (compare_eq_lt_iff_rank hx hy).mpr h

theorem le_iff_rank : x ≤ y ↔ x.isNaN = false ∧ y.isNaN = false ∧
    rank x.toModel.unpack ≤ rank y.toModel.unpack := by
  rw [le_iff_compare]
  constructor
  · intro h
    obtain ⟨hx, hy⟩ := h.elim isNaN_of_compare isNaN_of_compare
    rw [compare_eq_lt_iff_rank hx hy, compare_eq_eq_iff_rank hx hy] at h
    exact ⟨hx, hy, le_iff_lt_or_eq.mpr h⟩
  · rintro ⟨hx, hy, h⟩
    rw [compare_eq_lt_iff_rank hx hy, compare_eq_eq_iff_rank hx hy]
    exact le_iff_lt_or_eq.mp h

/-- What is not below is at least as great or cannot be compared. -/
theorem not_lt_iff : ¬ x < y ↔ y ≤ x ∨ x.isNaN ∨ y.isNaN := by
  rw [lt_iff_rank, le_iff_rank]
  cases x.isNaN <;> cases y.isNaN <;> simp

/-- Nothing is in order with what is no number. -/
theorem not_le_of_isNaN (h : x.isNaN ∨ y.isNaN) : ¬ x ≤ y := by
  rw [le_iff_rank]
  rintro ⟨hx, hy, -⟩
  rw [hx, hy] at h
  simp at h

theorem le_of_le_of_le (hxy : x ≤ y) (hyz : y ≤ z) : x ≤ z := by
  rw [le_iff_rank] at hxy hyz ⊢
  exact ⟨hxy.1, hyz.2.1, hxy.2.2.trans hyz.2.2⟩

theorem lt_of_le_and_lt (hxy : x ≤ y) (hyz : y < z) : x < z := by
  rw [le_iff_rank] at hxy
  rw [lt_iff_rank] at hyz ⊢
  exact ⟨hxy.1, hyz.2.1, hxy.2.2.trans_lt hyz.2.2⟩

theorem lt_of_lt_and_le (hxy : x < y) (hyz : y ≤ z) : x < z := by
  rw [le_iff_rank] at hyz
  rw [lt_iff_rank] at hxy ⊢
  exact ⟨hxy.1, hyz.2.1, hxy.2.2.trans_le hyz.2.2⟩

theorem not_le_of_lt (h : x < y) : ¬ y ≤ x := by
  rw [lt_iff_rank] at h
  rw [le_iff_rank]
  exact fun hle => hle.2.2.not_gt h.2.2

theorem le_of_lt (h : x < y) : x ≤ y := by
  rw [lt_iff_rank] at h
  rw [le_iff_rank]
  exact ⟨h.1, h.2.1, h.2.2.le⟩

theorem isNaN_of_isFinite (h : x.isFinite = true) : x.isNaN = false := by
  change x.toModel.unpack.isFinite = true at h
  change x.toModel.unpack.isNaN = false
  revert h
  cases x.toModel.unpack <;> simp [UnpackedFloat.isFinite, UnpackedFloat.isNaN]

end ProposalReview.Decimal
