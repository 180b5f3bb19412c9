import Mathlib
import ProposalReview.Decimal.Binary
/-!
The natural nearest to a number.

A number has one nearest natural, if of two that are equally near the even one counts; and of two numbers
the smaller one does not have the greater nearest natural. Rounding a fraction finds it.

    number             2      2.5    2.6    3.5
    nearest natural    2      2      3      4
-/

namespace ProposalReview.Decimal

variable {q q' : ℚ} {n n' : ℕ}

/-- Whether a natural is nearest to a number, and even if another one is equally near. -/
def NearestEven (q : ℚ) (n : ℕ) : Prop := |q - n| ≤ 1 / 2 ∧ (|q - n| = 1 / 2 → Even n)

theorem NearestEven.mono (h : NearestEven q n) (h' : NearestEven q' n') (hle : q ≤ q') : n ≤ n' := by
  by_contra hlt
  have hsucc : (n' : ℚ) + 1 ≤ n := by exact_mod_cast Nat.lt_of_not_le hlt
  obtain ⟨hbelow, -⟩ := abs_le.mp h.1
  obtain ⟨-, habove⟩ := abs_le.mp h'.1
  -- both are halfway between the two naturals, which are not both even
  have hhalf : q - n = -(1 / 2) := by linarith
  have hhalf' : q' - n' = 1 / 2 := by linarith
  have heven : Even n := h.2 (by rw [hhalf, abs_neg, abs_of_pos one_half_pos])
  have heven' : Even n' := h'.2 (by rw [hhalf', abs_of_pos one_half_pos])
  have hnext : n = n' + 1 := by
    have : (n : ℚ) = n' + 1 := by linarith
    exact_mod_cast this
  rw [hnext, Nat.even_add_one] at heven
  exact heven heven'

theorem NearestEven.unique (h : NearestEven q n) (h' : NearestEven q n') : n = n' :=
  (h.mono h' le_rfl).antisymm (h'.mono h le_rfl)

theorem NearestEven.natCast (k : ℕ) : NearestEven k k := by simp [NearestEven]

/-- The nearest natural to a number that is at most a natural is at most that natural. -/
theorem NearestEven.le_of_le {k : ℕ} (h : NearestEven q n) (hq : q ≤ k) : n ≤ k :=
  h.mono (.natCast k) hq

/-! ### Fractions -/

namespace Ratio

/-- The number that a fraction stands for. -/
def value (a : Ratio) : ℚ := a.num / a.den

theorem value_scale (k : ℕ) (a : Ratio) : (a.scale k).value = k * a.value := by
  rw [value, value, scale, Nat.cast_mul, mul_div_assoc]

theorem value_twoPow (e : Int) : (twoPow e).value = 2 ^ e := by
  cases e with
  | ofNat n => simp [value, twoPow]
  | negSucc n => simp [value, twoPow, zpow_negSucc]

theorem den_twoPow_pos (e : Int) : 0 < (twoPow e).den := by
  cases e with
  | ofNat n => exact Nat.one_pos
  | negSucc n => exact Nat.two_pow_pos (n + 1)

theorem div_lt_half {k d : ℕ} (hd : 0 < d) : (k : ℚ) / d < 1 / 2 ↔ 2 * k < d := by
  rw [div_lt_div_iff₀ (by exact_mod_cast hd) two_pos, one_mul, mul_comm]
  exact_mod_cast Iff.rfl

theorem div_eq_half {k d : ℕ} (hd : 0 < d) : (k : ℚ) / d = 1 / 2 ↔ 2 * k = d := by
  rw [div_eq_div_iff (by exact_mod_cast hd.ne') two_ne_zero, one_mul, mul_comm]
  exact_mod_cast Iff.rfl

/-- A fraction is the whole below it and what is left. -/
theorem value_eq_add {a : Ratio} (ha : 0 < a.den) :
    a.value = (a.num / a.den : ℕ) + (a.num % a.den : ℕ) / (a.den : ℚ) := by
  have hden : (a.den : ℚ) ≠ 0 := by exact_mod_cast ha.ne'
  rw [value, div_eq_iff hden, add_mul, div_mul_cancel₀ _ hden]
  exact_mod_cast (Nat.div_add_mod' a.num a.den).symm

/-- Rounding with ties to the even one gives the nearest natural. -/
theorem nearestEven_round {a : Ratio} (ha : 0 < a.den) : NearestEven a.value (a.round .toEven) := by
  have hlt : ((a.num % a.den : ℕ) : ℚ) / a.den < 1 :=
    (div_lt_one (by exact_mod_cast ha)).mpr (by exact_mod_cast Nat.mod_lt _ ha)
  have hnonneg : (0 : ℚ) ≤ (a.num % a.den : ℕ) / (a.den : ℚ) := by positivity
  simp only [NearestEven, value_eq_add ha, round, ← div_lt_half ha, ← div_eq_half ha]
  generalize ((a.num % a.den : ℕ) : ℚ) / a.den = r at *
  generalize a.num / a.den = low
  have hbelow : |(low : ℚ) + r - low| = r := by rw [add_sub_cancel_left, abs_of_nonneg hnonneg]
  have habove : |(low : ℚ) + r - (low + 1 : ℕ)| = 1 - r := by
    rw [Nat.cast_add_one, add_sub_add_left_eq_sub, abs_sub_comm, abs_of_pos (by linarith)]
  split_ifs with hless hhalf hodd
  · rw [hbelow]
    exact ⟨hless.le, fun h => absurd h hless.ne⟩
  · rw [habove, hhalf]
    rw [Tie.goesUp, beq_iff_eq] at hodd
    exact ⟨by norm_num, fun _ => Nat.even_iff.mpr (by omega)⟩
  · rw [hbelow, hhalf]
    rw [Tie.goesUp, beq_iff_eq] at hodd
    exact ⟨le_rfl, fun _ => Nat.even_iff.mpr (by omega)⟩
  · have hmore : 1 / 2 < r := lt_of_le_of_ne (not_lt.mp hless) (Ne.symm hhalf)
    rw [habove]
    exact ⟨by linarith, fun h => absurd h (by linarith)⟩

end Ratio

end ProposalReview.Decimal
