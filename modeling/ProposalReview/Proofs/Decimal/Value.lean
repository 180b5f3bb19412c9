import ProposalReview.Proofs.Decimal.Arithmetic
import ProposalReview.Proofs.Decimal.Order
/-!
Floats are compared as the numbers that they stand for.

A comparison looks at the exponents first and at the mantissas only if these are equal. That is the
order of the numbers because the format has one way to write each: where the exponent is greater than
the least one the mantissa is full, and no mantissa makes up for an exponent that is one less. So the
float next to another one, away from zero, has the same exponent and one more in the mantissa, unless
that is full.
-/

namespace ProposalReview.Decimal

open Float.Model Float.Model.UnpackedFloat

variable {x y z : Float} {a b : UnpackedFloat} {s : Sign} {m m' : Nat} {e e' : Int} {q q' : ℚ}

/-! ### Exponents before mantissas -/

/-- No mantissa makes up for an exponent that is one less than that of a full mantissa. -/
theorem mul_zpow_le (hq : q ≤ 2 ^ 53) (hq' : 2 ^ 52 ≤ q') (he : e < e') : q * 2 ^ e ≤ q' * 2 ^ e' := by
  have hpow : (2 : ℚ) ^ (e + 1) ≤ 2 ^ e' := zpow_le_zpow_right₀ one_le_two (by omega)
  calc q * 2 ^ e ≤ 2 ^ 53 * 2 ^ e := by gcongr
    _ = 2 ^ 52 * 2 ^ (e + 1) := by
        rw [zpow_add_one₀ two_ne_zero]
        ring
    _ ≤ q' * 2 ^ e' := by gcongr

theorem mul_zpow_lt (hq : q < 2 ^ 53) (hq' : 2 ^ 52 ≤ q') (he : e < e') : q * 2 ^ e < q' * 2 ^ e' :=
  (mul_lt_mul_of_pos_right hq (zpow_pos two_pos e)).trans_le (mul_zpow_le le_rfl hq' he)

section

variable {s' : Sign} {hm : 0 < m} {hm' : 0 < m'}

theorem Canonical.mul_zpow_lt (h : Canonical (.finite s m e hm))
    (h' : Canonical (.finite s' m' e' hm')) (he : e < e') : (m : ℚ) * 2 ^ e < m' * 2 ^ e' := by
  have hleast := h.2.1
  refine Decimal.mul_zpow_lt (by exact_mod_cast h.1) ?_ he
  exact_mod_cast h'.2.2.resolve_right (by omega)

/-- The order of the numbers is that of the exponents, and of the mantissas if these are equal. -/
theorem Canonical.mul_zpow_lt_iff (h : Canonical (.finite s m e hm))
    (h' : Canonical (.finite s' m' e' hm')) :
    (m : ℚ) * 2 ^ e < m' * 2 ^ e' ↔ e < e' ∨ e = e' ∧ m < m' := by
  rcases lt_trichotomy e e' with he | rfl | he
  · exact iff_of_true (h.mul_zpow_lt h' he) (.inl he)
  · rw [mul_lt_mul_iff_left₀ (zpow_pos two_pos e), Nat.cast_lt]
    simp
  · exact iff_of_false (h'.mul_zpow_lt h he).le.not_gt (by omega)

end

/-- Exponents come before mantissas, in both directions. -/
theorem compare_fields_swap (m m' : Nat) (e e' : Int) : (compare e' e).then (compare m' m)
    = ((compare e e').then (compare m m')).swap := by
  rw [Ordering.swap_then, Int.compare_swap, Nat.compare_swap]

theorem compare_fields_eq_lt : (compare e e').then (compare m m') = .lt ↔ e < e' ∨ e = e' ∧ m < m' := by
  rw [Ordering.then_eq_lt, Int.compare_eq_lt, Int.compare_eq_eq, Nat.compare_eq_lt]

/-! ### Values -/

theorem mul_zpow_pos (hm : 0 < m) (e : Int) : (0 : ℚ) < m * 2 ^ e :=
  mul_pos (by exact_mod_cast hm) (zpow_pos two_pos e)

/-- Of two values that are written as the format has it, and are finite, one is less if its number
is. -/
theorem compare_eq_lt_iff (ha : Canonical a) (hb : Canonical b) (ha' : Fits a) (hb' : Fits b) :
    a.compare b = some .lt ↔ rational a < rational b := by
  rcases a with _ | _ | s | ⟨s, m, e, hm⟩
  · exact ha'.elim
  · exact ha'.elim
  · rcases b with _ | _ | s' | ⟨_ | _, m', e', hm'⟩
    · exact hb'.elim
    · exact hb'.elim
    · simp [UnpackedFloat.compare, rational]
    · simp [UnpackedFloat.compare, rational, Sign.apply, (mul_zpow_pos hm' e').le]
    · simpa [UnpackedFloat.compare, rational, Sign.apply] using mul_zpow_pos hm' e'
  · rcases b with _ | _ | s' | ⟨s', m', e', hm'⟩
    · exact hb'.elim
    · exact hb'.elim
    · rcases s with _ | _
      · simpa [UnpackedFloat.compare, rational, Sign.apply] using mul_zpow_pos hm e
      · simp [UnpackedFloat.compare, rational, Sign.apply, (mul_zpow_pos hm e).le]
    · have hpos := mul_zpow_pos hm e
      have hpos' := mul_zpow_pos hm' e'
      rcases s with _ | _ <;> rcases s' with _ | _ <;>
        simp only [UnpackedFloat.compare, rational, Sign.apply, Int.cast_neg, Int.cast_natCast,
          neg_mul, Option.some_inj, reduceCtorEq, false_iff, true_iff]
      · rw [← compare_fields_swap, compare_fields_eq_lt, neg_lt_neg_iff, hb.mul_zpow_lt_iff ha]
      · linarith
      · linarith
      · rw [compare_fields_eq_lt, ha.mul_zpow_lt_iff hb]

/-- A finite float is less than another one just when its number is. -/
theorem lt_iff_value (hx : x.isFinite = true) (hy : y.isFinite = true) : x < y ↔ value x < value y := by
  rw [lt_iff_compare]
  exact compare_eq_lt_iff (canonical_unpack _) (canonical_unpack _) (fits_unpack hx) (fits_unpack hy)

theorem le_iff_value (hx : x.isFinite = true) (hy : y.isFinite = true) : x ≤ y ↔ value x ≤ value y := by
  have hnot := not_lt_iff (x := y) (y := x)
  rw [isNaN_of_isFinite hx, isNaN_of_isFinite hy, lt_iff_value hy hx, not_lt] at hnot
  simpa using hnot.symm

theorem not_le_iff (hx : x.isFinite = true) (hy : y.isFinite = true) : ¬ x ≤ y ↔ y < x := by
  rw [le_iff_value hx hy, lt_iff_value hy hx, not_le]

/-! ### Zero -/

theorem rational_ne_zero (ha : Fits a)
    (h : ¬ a.beq (.zero .positive) = true) : rational a ≠ 0 := by
  rcases a with _ | _ | _ | ⟨s, m, e, hm⟩
  · exact ha.elim
  · exact ha.elim
  · exact absurd rfl h
  · rw [← abs_pos, rational, abs_apply_mul]
    positivity

theorem unpack_zero : (0.0 : Float).toModel.unpack = .zero .positive := by rfl

theorem value_zero : value 0.0 = 0 := by rfl

theorem value_nonneg (hx : x.isFinite = true) (h : ¬ x < 0.0) : 0 ≤ value x := by
  rw [lt_iff_value hx (by decide +kernel), value_zero] at h
  exact not_lt.mp h

theorem value_ne_zero (hx : x.isFinite = true) (h : ¬ (x == 0.0) = true) : value x ≠ 0 := by
  refine rational_ne_zero (fits_unpack hx) fun heq => h ?_
  rwa [← unpack_zero] at heq

/-- The difference of two finite floats that are not negative is finite. -/
theorem isFinite_sub_of_nonneg (hx : x.isFinite = true) (hy : y.isFinite = true) (hx₀ : ¬ x < 0.0)
    (hy₀ : ¬ y < 0.0) : (x - y).isFinite = true := by
  have hxv := not_overflows_value hx
  have hyv := not_overflows_value hy
  have hxn := value_nonneg hx hx₀
  have hyn := value_nonneg hy hy₀
  rw [isFinite_sub hx hy]
  rw [Overflows, not_le, abs_of_nonneg hxn] at hxv
  rw [Overflows, not_le, abs_of_nonneg hyn] at hyv
  rw [Overflows, not_le, abs_lt]
  constructor <;> linarith

/-! ### The next float -/

theorem isFinite_of_unpack {hm : 0 < m} (h : x.toModel.unpack = .finite s m e hm) :
    x.isFinite = true := by
  change x.toModel.unpack.isFinite = true
  rw [h]
  rfl

/-- No float lies between two whose mantissas are next to each other. -/
theorem not_between {hm : 0 < m} {hm' : 0 < m + 1} (hy : y.toModel.unpack = .finite s m e hm)
    (hz : z.toModel.unpack = .finite s (m + 1) e hm') : ¬ (y < x ∧ x < z) ∧ ¬ (z < x ∧ x < y) := by
  simp only [lt_iff_compare, hy, hz]
  rcases x.toModel.unpack with (_ | _) | _ | _ | ⟨_ | _, m', e', hm''⟩ <;> rcases s with _ | _ <;>
    simp only [UnpackedFloat.compare, Option.some_inj, reduceCtorEq, false_and, and_false,
      not_false_eq_true, and_self, ← compare_fields_swap, compare_fields_eq_lt] <;> omega

/-- A finite float that does not lie between two others is on one of their sides. -/
theorem le_or_le_of_not_between (hx : x.isFinite = true) (hy : y.isFinite = true)
    (hz : z.isFinite = true) (h : ¬ (y < x ∧ x < z)) : x ≤ y ∨ z ≤ x := by
  by_contra hneither
  obtain ⟨hxy, hzx⟩ := not_or.mp hneither
  exact h ⟨(not_le_iff hx hy).mp hxy, (not_le_iff hz hx).mp hzx⟩

end ProposalReview.Decimal
