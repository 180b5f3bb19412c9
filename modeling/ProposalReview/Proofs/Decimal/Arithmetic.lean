import ProposalReview.Proofs.Decimal.Rounding
/-!
Sums, differences and quotients of floats that overflow.

An operation on finite floats works out the exact result and rounds it. So it is finite just when the
exact result does not overflow, and what is not finite stays so in every further sum or quotient.
-/

namespace ProposalReview.Decimal

open Float.Model Float.Model.UnpackedFloat

variable {x y : Float} {a b : UnpackedFloat} {s : Sign} {m : Nat} {e : Int}

/-! ### Values -/

/-- The number that a value stands for; zero if it is not finite. -/
def rational : UnpackedFloat → ℚ
  | .finite s m e _ => s.apply m * 2 ^ e
  | _ => 0

/-- The number that a float stands for; zero if it is not finite. -/
def value (x : Float) : ℚ := rational x.toModel.unpack

/-- Whether a number is too great to be rounded to a finite float. -/
def Overflows (q : ℚ) : Prop := limit ≤ |q|

/-- Whether a value is finite and in the range of the format. -/
def Fits : UnpackedFloat → Prop
  | .zero _ => True
  | .finite _ m e _ => m < 2 ^ 53 ∧ e ≤ 971
  | _ => False

theorem fits_unpack (h : x.isFinite = true) : Fits x.toModel.unpack := by
  change x.toModel.unpack.isFinite = true at h
  rcases hx : x.toModel.unpack with _ | _ | _ | ⟨s, m, e, hm⟩
  · simp [hx, UnpackedFloat.isFinite] at h
  · simp [hx, UnpackedFloat.isFinite] at h
  · trivial
  · obtain ⟨hcanonical, he⟩ := unpack_finite hx
    exact ⟨hcanonical.1, he⟩

theorem Fits.isFinite_pack (h : Fits a) : (Float.Model.pack a).isFinite = true := by
  rcases a with _ | _ | s | ⟨s, m, e, hm⟩
  · exact h.elim
  · exact h.elim
  · exact isFinite_pack_zero s
  · exact (isFinite_pack_finite hm).mpr h.2

theorem abs_apply_mul (s : Sign) (m : Nat) (e : Int) : |(s.apply m : ℚ) * 2 ^ e| = m * 2 ^ e := by
  rw [abs_mul, abs_of_pos (zpow_pos two_pos e : (0 : ℚ) < 2 ^ e)]
  refine congrArg (· * _) ?_
  cases s <;> simp [Sign.apply]

/-- No finite float overflows. -/
theorem Fits.not_overflows (h : Fits a) : ¬ Overflows (rational a) := by
  rw [Overflows, not_le]
  rcases a with _ | _ | s | ⟨s, m, e, hm⟩
  · exact h.elim
  · exact h.elim
  · simpa [rational] using limit_pos
  obtain ⟨hmantissa, he⟩ := h
  have hm : (m : ℚ) ≤ 2 ^ 53 - 1 := by
    have : (m : ℚ) + 1 ≤ 2 ^ 53 := by exact_mod_cast hmantissa
    linarith
  have hpow : (2 : ℚ) ^ e ≤ 2 ^ (971 : Int) := zpow_le_zpow_right₀ one_le_two he
  have hnonneg : (0 : ℚ) ≤ 2 ^ 53 - 1 := by norm_num
  rw [rational, abs_apply_mul]
  calc (m : ℚ) * 2 ^ e ≤ (2 ^ 53 - 1) * 2 ^ (971 : Int) :=
        mul_le_mul hm hpow (zpow_pos two_pos e).le hnonneg
    _ = (2 ^ 54 - 2) * 2 ^ (970 : Int) := by
        rw [show (971 : Int) = 970 + 1 from rfl, zpow_add_one₀ two_ne_zero]
        ring
    _ < (2 ^ 54 - 1) * 2 ^ (970 : Int) := by gcongr; norm_num
    _ = limit := limit_eq.symm

theorem not_overflows_value (h : x.isFinite = true) : ¬ Overflows (value x) :=
  (fits_unpack h).not_overflows

/-! ### Sums and differences -/

theorem fittedExponent_shiftLeft (hm : m ≠ 0) (k : Nat) :
    fittedExponent (m <<< k) (e - k) = fittedExponent m e := by
  have hlog : (m <<< k).log2 = m.log2 + k := by
    refine (Nat.log2_eq_iff ?_).mpr ⟨?_, ?_⟩ <;> rw [Nat.shiftLeft_eq]
    · positivity
    · rw [pow_add]
      exact Nat.mul_le_mul_right _ (Nat.log2_self_le hm)
    · rw [Nat.add_right_comm, pow_add]
      exact Nat.mul_lt_mul_of_pos_right Nat.lt_log2_self (Nat.two_pow_pos k)
  rw [fittedExponent, fittedExponent, hlog]
  omega

theorem shiftLeft_mul_zpow (m k : Nat) (e : Int) :
    ((m <<< k : Nat) : ℚ) * 2 ^ (e - k) = m * 2 ^ e := by
  rw [Nat.shiftLeft_eq, Nat.cast_mul, Nat.cast_pow, Nat.cast_ofNat, mul_assoc, ← zpow_natCast,
    ← zpow_add₀ two_ne_zero, add_sub_cancel]

theorem isFinite_pack_round (s : Sign) (hm : 0 < m) :
    (Float.Model.pack (UnpackedFloat.round .binary64 s m e)).isFinite = true ↔ (m : ℚ) * 2 ^ e < limit := by
  rw [← shiftLeft_mul_zpow m (e - fittedExponent m e).toNat e, UnpackedFloat.round, targetExponent_totalExponent]
  refine isFinite_pack_roundWithAccuracy rfl ?_
  rw [fittedExponent_shiftLeft hm.ne']
  omega

theorem isFinite_pack_normalize (n : Int) (e : Int) (s : Sign) :
    (Float.Model.pack (UnpackedFloat.normalize .binary64 n e s)).isFinite = true ↔ ¬ Overflows (n * 2 ^ e) := by
  have habs : |(n : ℚ) * 2 ^ e| = |n| * 2 ^ e := by
    rw [abs_mul, abs_of_pos (zpow_pos two_pos e : (0 : ℚ) < 2 ^ e), Int.cast_abs]
  rw [Overflows, not_le, habs, UnpackedFloat.normalize]
  rcases hn : compare n 0 <;> simp only
  · have hneg := Int.compare_eq_lt.mp hn
    rw [isFinite_pack_round _ (by omega), abs_of_neg hneg]
    have : (((-n).toNat : Nat) : ℚ) = ((-n : Int) : ℚ) := by
      exact_mod_cast Int.toNat_of_nonneg (by omega)
    rw [this]
  · obtain rfl := Int.compare_eq_eq.mp hn
    simpa [isFinite_pack_zero] using limit_pos
  · have hpos := Int.compare_eq_gt.mp hn
    rw [isFinite_pack_round _ (by omega), abs_of_pos hpos]
    have : ((n.toNat : Nat) : ℚ) = (n : ℚ) := by
      exact_mod_cast Int.toNat_of_nonneg (by omega)
    rw [this]

theorem apply_decreaseExponent (s : Sign) (m : Nat) {e t : Int} (h : t ≤ e) :
    (s.apply ((decreaseExponent m e t).1 : Nat) : ℚ) * 2 ^ t = s.apply m * 2 ^ e := by
  have hvalue := shiftLeft_mul_zpow m (e - t).toNat e
  rw [show e - ((e - t).toNat : Int) = t by omega] at hvalue
  change (s.apply ((m <<< (e - t).toNat : Nat) : Int) : ℚ) * 2 ^ t = _
  cases s
  · simp only [Sign.apply, Int.cast_neg, Int.cast_natCast, neg_mul, hvalue]
  · simp only [Sign.apply, Int.cast_natCast, hvalue]

theorem isFinite_pack_add (ha : Fits a) (hb : Fits b) :
    (Float.Model.pack (UnpackedFloat.add .binary64 a b)).isFinite = true ↔ ¬ Overflows (rational a + rational b) := by
  rcases a with _ | _ | s | ⟨s, m, e, hm⟩
  · exact ha.elim
  · exact ha.elim
  · rcases b with _ | _ | s' | ⟨s', m', e', hm'⟩
    · exact hb.elim
    · exact hb.elim
    · refine iff_of_true ?_ (by simpa [rational] using ha.not_overflows)
      simp only [UnpackedFloat.add]
      split_ifs <;> exact isFinite_pack_zero _
    · exact iff_of_true hb.isFinite_pack (by simpa [rational] using hb.not_overflows)
  · rcases b with _ | _ | s' | ⟨s', m', e', hm'⟩
    · exact hb.elim
    · exact hb.elim
    · exact iff_of_true ha.isFinite_pack (by simpa [rational] using ha.not_overflows)
    · have hsum := isFinite_pack_normalize (s.apply ((decreaseExponent m e (min e e')).1 : Nat) +
        s'.apply ((decreaseExponent m' e' (min e e')).1 : Nat)) (min e e') .positive
      rwa [Int.cast_add, add_mul, apply_decreaseExponent s m (min_le_left e e'),
        apply_decreaseExponent s' m' (min_le_right e e')] at hsum

/-- The sum of two finite floats is finite just when it does not overflow. -/
theorem isFinite_add (hx : x.isFinite = true) (hy : y.isFinite = true) :
    (x + y).isFinite = true ↔ ¬ Overflows (value x + value y) :=
  isFinite_pack_add (fits_unpack hx) (fits_unpack hy)

/-- A difference is the sum with the opposite value. -/
theorem unpacked_sub_eq (spec : Format) (a b : UnpackedFloat) :
    UnpackedFloat.sub spec a b = UnpackedFloat.add spec a b.neg := by
  have happly : ∀ (s : Sign) (n : Int), (-s).apply n = -s.apply n := by
    intro s n
    cases s
    · exact (neg_neg n).symm
    · rfl
  rcases a with s | _ | s | ⟨s, m, e, hm⟩ <;> rcases b with s' | _ | s' | ⟨s', m', e', hm'⟩ <;>
    simp only [UnpackedFloat.sub, UnpackedFloat.add, UnpackedFloat.neg, happly,
      sub_eq_add_neg]

theorem Fits.neg (h : Fits a) : Fits a.neg := by
  rcases a with _ | _ | _ | _ <;> exact h

theorem rational_neg (a : UnpackedFloat) : rational a.neg = -rational a := by
  rcases a with _ | _ | _ | ⟨s, m, e, hm⟩
  · exact neg_zero.symm
  · exact neg_zero.symm
  · exact neg_zero.symm
  · cases s <;> simp [UnpackedFloat.neg, rational, Sign.apply]

/-- The difference of two finite floats is finite just when it does not overflow. -/
theorem isFinite_sub (hx : x.isFinite = true) (hy : y.isFinite = true) :
    (x - y).isFinite = true ↔ ¬ Overflows (value x - value y) := by
  have hsum := isFinite_pack_add (fits_unpack hx) (fits_unpack hy).neg
  rw [rational_neg, ← sub_eq_add_neg, ← unpacked_sub_eq] at hsum
  exact hsum

/-! ### Quotients -/

variable {m' : Nat} {e' : Int}

/-- The exponent that a quotient is worked out with: small enough for all bits of the mantissa. -/
def quotientExponent (m : Nat) (e : Int) (m' : Nat) (e' : Int) : Int :=
  min (e - e') (max ((m.log2 : Int) - m'.log2 + e - e' - 53) (-1074))

/-- The dividend's mantissa for that exponent. -/
def dividend (m : Nat) (e : Int) (m' : Nat) (e' : Int) : Nat :=
  m <<< (e - e' - quotientExponent m e m' e').toNat

theorem divCore_eq (m : Nat) (e : Int) (m' : Nat) (e' : Int) :
    divCore .binary64 m e m' e' = (dividend m e m' e' / m', quotientExponent m e m' e',
      accuracyOfFraction (dividend m e m' e' % m') m') := by
  have hexponent : min (e - e') (Format.binary64.targetExponent
      (totalExponent m e - totalExponent m' e')) = quotientExponent m e m' e' := by
    rw [targetExponent_binary64, quotientExponent, totalExponent, totalExponent]
    omega
  simp only [divCore, hexponent]
  rfl

theorem quotientExponent_le (hm : 0 < m) (hm' : 0 < m') :
    quotientExponent m e m' e' ≤ fittedExponent (dividend m e m' e' / m') (quotientExponent m e m' e') := by
  by_cases hleast : quotientExponent m e m' e' ≤ -1074
  · exact hleast.trans (le_max_right _ _)
  have hquotient : 2 ^ 52 ≤ dividend m e m' e' / m' := by
    rw [Nat.le_div_iff_mul_le hm', dividend, Nat.shiftLeft_eq]
    set k := (e - e' - quotientExponent m e m' e').toNat with hk
    have hbits : 52 + (m'.log2 + 1) ≤ m.log2 + k := by
      rw [quotientExponent] at hk hleast
      omega
    calc 2 ^ 52 * m' ≤ 2 ^ 52 * 2 ^ (m'.log2 + 1) := Nat.mul_le_mul_left _ Nat.lt_log2_self.le
      _ = 2 ^ (52 + (m'.log2 + 1)) := (pow_add _ _ _).symm
      _ ≤ 2 ^ (m.log2 + k) := Nat.pow_le_pow_right (by omega) hbits
      _ = 2 ^ m.log2 * 2 ^ k := pow_add _ _ _
      _ ≤ m * 2 ^ k := Nat.mul_le_mul_right _ (Nat.log2_self_le hm.ne')
  have hlog := (Nat.le_log2 (by omega)).mpr hquotient
  rw [fittedExponent]
  omega

theorem liesAbove_quotient (hm' : 0 < m') :
    LiesAbove (dividend m e m' e' / m') (dividend m e m' e' / m')
      (accuracyOfFraction (dividend m e m' e' % m') m') := by
  have hsplit : (dividend m e m' e' : ℚ) / m' = (dividend m e m' e' / m' : Nat) +
      (dividend m e m' e' % m' : Nat) / m' := by
    have hne : (m' : ℚ) ≠ 0 := by exact_mod_cast hm'.ne'
    rw [div_eq_iff hne, add_mul, div_mul_cancel₀ _ hne]
    exact_mod_cast (Nat.div_add_mod' (dividend m e m' e') m').symm
  rw [hsplit]
  exact liesAbove_fraction _ (Nat.mod_lt _ hm')

theorem quotient_mul_zpow (m : Nat) (e : Int) (m' : Nat) (e' : Int) :
    (dividend m e m' e' : ℚ) / m' * 2 ^ quotientExponent m e m' e' = m * 2 ^ e / (m' * 2 ^ e') := by
  have hvalue := shiftLeft_mul_zpow m (e - e' - quotientExponent m e m' e').toNat (e - e')
  have hle : quotientExponent m e m' e' ≤ e - e' := min_le_left _ _
  rw [show e - e' - ((e - e' - quotientExponent m e m' e').toNat : Int)
    = quotientExponent m e m' e' by omega] at hvalue
  rw [div_mul_eq_mul_div, dividend, hvalue, zpow_sub₀ two_ne_zero, mul_div_assoc', div_div,
    mul_comm (m' : ℚ)]

theorem isFinite_pack_div (ha : Fits a) (hb : Fits b) (hne : rational b ≠ 0) :
    (Float.Model.pack (UnpackedFloat.div .binary64 a b)).isFinite = true ↔
      ¬ Overflows (rational a / rational b) := by
  rcases b with _ | _ | _ | ⟨s', m', e', hm'⟩
  · exact hb.elim
  · exact hb.elim
  · exact absurd rfl hne
  rcases a with _ | _ | s | ⟨s, m, e, hm⟩
  · exact ha.elim
  · exact ha.elim
  · refine iff_of_true (isFinite_pack_zero _) ?_
    simpa [rational, Overflows] using limit_pos
  · rw [Overflows, not_le, rational, rational, abs_div, abs_apply_mul, abs_apply_mul,
      ← quotient_mul_zpow]
    simp only [UnpackedFloat.div, divCore_eq]
    exact isFinite_pack_roundWithAccuracy (liesAbove_quotient hm') (quotientExponent_le hm hm')

/-- The quotient of two finite floats, of which the second is not zero, is finite just when it does not
overflow. -/
theorem isFinite_div (hx : x.isFinite = true) (hy : y.isFinite = true) (hne : value y ≠ 0) :
    (x / y).isFinite = true ↔ ¬ Overflows (value x / value y) :=
  isFinite_pack_div (fits_unpack hx) (fits_unpack hy) hne

/-! ### What is not finite -/

theorem isFinite_pack_notANumber : (Float.Model.pack .notANumber).isFinite = false := rfl

theorem isFinite_of_pack_add
    (h : (Float.Model.pack (UnpackedFloat.add .binary64 a b)).isFinite = true) :
    a.isFinite = true ∧ b.isFinite = true := by
  rcases a with s | _ | s | _ <;> rcases b with s' | _ | s' | _ <;>
    simp only [UnpackedFloat.add, apply_ite, isFinite_pack_notANumber, isFinite_pack_infinity,
      ite_self, reduceCtorEq] at h <;> exact ⟨rfl, rfl⟩

/-- What is not finite makes every sum so. -/
theorem isFinite_of_add (h : (x + y).isFinite = true) : x.isFinite = true ∧ y.isFinite = true :=
  isFinite_of_pack_add h

/-- What is not finite makes every difference so. -/
theorem isFinite_of_sub (h : (x - y).isFinite = true) : x.isFinite = true ∧ y.isFinite = true := by
  have hsum : (Float.Model.pack (UnpackedFloat.sub .binary64 x.toModel.unpack
    y.toModel.unpack)).isFinite = true := h
  rw [unpacked_sub_eq] at hsum
  obtain ⟨hx, hy⟩ := isFinite_of_pack_add hsum
  refine ⟨hx, ?_⟩
  change y.toModel.unpack.isFinite = true
  generalize y.toModel.unpack = b at hy
  rcases b with _ | _ | _ | _ <;> exact hy

theorem isFinite_of_pack_div
    (h : (Float.Model.pack (UnpackedFloat.div .binary64 a b)).isFinite = true) :
    a.isFinite = true := by
  rcases a with s | _ | s | _ <;> rcases b with s' | _ | s' | _ <;>
    simp only [UnpackedFloat.div, isFinite_pack_notANumber, isFinite_pack_infinity,
      reduceCtorEq] at h <;> rfl

/-- What is not finite makes every quotient so. -/
theorem isFinite_of_div (h : (x / y).isFinite = true) : x.isFinite = true :=
  isFinite_of_pack_div h

/-! ### Division by one and more -/

theorem one_le_abs_rational (h : Large b) (hb : Fits b) : 1 ≤ |rational b| := by
  rcases b with _ | _ | _ | ⟨s, m, e, hm⟩
  · exact hb.elim
  · exact hb.elim
  · exact h.elim
  obtain ⟨hmantissa, -, he⟩ := h
  have hm : (2 : ℚ) ^ 52 ≤ m := by exact_mod_cast hmantissa
  have hpow : (2 : ℚ) ^ (-52 : Int) ≤ 2 ^ e := zpow_le_zpow_right₀ one_le_two he
  rw [rational, abs_apply_mul]
  calc (1 : ℚ) = 2 ^ 52 * 2 ^ (-52 : Int) := by norm_num
    _ ≤ m * 2 ^ e := by gcongr

/-- A finite float is divided by a float from one on without overflow. -/
theorem isFinite_div_of_large (hx : x.isFinite = true) (hy : Large y.toModel.unpack) :
    (x / y).isFinite = true := by
  by_cases hfinite : y.isFinite = true
  · have hone : 1 ≤ |value y| := one_le_abs_rational hy (fits_unpack hfinite)
    have hne : value y ≠ 0 := by
      intro hzero
      rw [hzero, abs_zero] at hone
      linarith
    refine (isFinite_div hx hfinite hne).mpr fun hover => not_overflows_value hx (hover.trans ?_)
    rw [abs_div]
    exact div_le_self (abs_nonneg _) hone
  · have hfits := fits_unpack hx
    change ¬ y.toModel.unpack.isFinite = true at hfinite
    change (Float.Model.pack (UnpackedFloat.div .binary64 x.toModel.unpack
      y.toModel.unpack)).isFinite = true
    generalize x.toModel.unpack = a at hfits
    generalize y.toModel.unpack = b at hfinite hy
    rcases b with _ | _ | _ | _
    · rcases a with _ | _ | _ | _
      · exact hfits.elim
      · exact hfits.elim
      · exact isFinite_pack_zero _
      · exact isFinite_pack_zero _
    · exact hy.elim
    · exact absurd rfl hfinite
    · exact absurd rfl hfinite

theorem large_round (s : Sign) (hm : 0 < m) (hone : 1 ≤ (m : ℚ) * 2 ^ e) :
    Large (UnpackedFloat.round .binary64 s m e) := by
  rw [← shiftLeft_mul_zpow m (e - fittedExponent m e).toNat e] at hone
  rw [UnpackedFloat.round, targetExponent_totalExponent]
  refine large_roundWithAccuracy rfl ?_ hone
  rw [fittedExponent_shiftLeft hm.ne']
  omega

theorem Large.mul (ha : Large a) (hb : Large b) : Large (UnpackedFloat.mul .binary64 a b) := by
  rcases a with _ | _ | _ | ⟨s, m, e, hm⟩ <;> rcases b with _ | _ | _ | ⟨s', m', e', hm'⟩ <;>
    first | exact ha.elim | exact hb.elim | trivial | skip
  obtain ⟨hle, hlt, he⟩ := ha
  obtain ⟨hle', hlt', he'⟩ := hb
  have hproduct : 2 ^ 104 ≤ m * m' :=
    (Nat.pow_add 2 52 52).trans_le (Nat.mul_le_mul hle hle')
  have hlog : 104 ≤ (m * m').log2 := (Nat.le_log2 (by omega)).mpr hproduct
  refine large_roundWithAccuracy rfl ?_ ?_
  · rw [fittedExponent]
    omega
  · have hq : (2 : ℚ) ^ 104 ≤ (m * m' : Nat) := by exact_mod_cast hproduct
    have hpow : (2 : ℚ) ^ (-104 : Int) ≤ 2 ^ (e + e') := zpow_le_zpow_right₀ one_le_two (by omega)
    calc (1 : ℚ) = 2 ^ 104 * 2 ^ (-104 : Int) := by norm_num
      _ ≤ (m * m' : Nat) * 2 ^ (e + e') := by gcongr

theorem large_unpacked_ofNat {n : Nat} (hn : 0 < n) : Large (UnpackedFloat.ofNat .binary64 n) := by
  have hgreater : compare (n : Int) 0 = .gt := Int.compare_eq_gt.mpr (by omega)
  rw [UnpackedFloat.ofNat, UnpackedFloat.ofInt, UnpackedFloat.normalize, hgreater]
  refine large_round _ (by omega) ?_
  rw [zpow_zero, mul_one]
  exact_mod_cast hn

theorem ofScientific_zero {n : Nat} (hn : 0 < n) : UnpackedFloat.ofScientific .binary64 n 0 =
    roundWithAccuracy .binary64 .positive (n <<< 53) ((0 : Int) - (53 : Nat)) .exact := by
  have hgreat : ¬ (0 : Int) > 2 ^ 11 := by decide
  have hsmall : ¬ (0 : Int) < -(2 ^ 11 + n.log2) := by omega
  rw [UnpackedFloat.ofScientific, dif_neg hn.ne', if_neg hgreat, if_neg hsmall, if_pos le_rfl]
  have hone : n <<< 53 * 10 ^ (0 : Int).toNat = n <<< 53 := Nat.mul_one _
  rw [← hone]
  rfl

/-- A positive natural is converted to a float from one on, or to infinity. -/
theorem large_ofNat {n : Nat} (hn : 0 < n) : Large (Float.ofNat n).toModel.unpack := by
  change Large (Float.ofScientific n false 0).toModel.unpack
  rw [Float.ofScientific]
  by_cases hsmall : n < 2 ^ 53 ∧ 0 ≤ 22
  · -- a natural that is a float itself is multiplied by the float one
    rw [dif_pos hsmall, if_neg (by decide)]
    have hword : n.toUInt64.toNat = n := by
      rw [Nat.toUInt64_eq, UInt64.toNat_ofNat', Nat.mod_eq_of_lt (by omega)]
    refine large_unpack_pack (Large.mul (large_unpack_pack ?_) ?_)
    · rw [UnpackedFloat.ofUInt64, hword]
      exact large_unpacked_ofNat hn
    · have hone : Float.exactlyRepresentablePowersOfTen[0].toModel.unpack =
          .finite .positive (2 ^ 52) (-52) (by decide) := by rfl
      rw [hone]
      exact ⟨le_rfl, by decide, le_rfl⟩
  · have hlog : 53 ≤ (n <<< 53).log2 := by
      rw [Nat.le_log2 (Nat.shiftLeft_pos_iff.mpr hn).ne', Nat.shiftLeft_eq]
      exact Nat.le_mul_of_pos_left _ hn
    rw [dif_neg hsmall]
    simp only [Bool.false_eq_true, if_false, Int.ofNat_eq_natCast, Nat.cast_zero]
    rw [Float.Model.ofScientific, ofScientific_zero hn]
    have hone : (1 : ℚ) ≤ (n <<< 53 : Nat) * 2 ^ ((0 : Int) - (53 : Nat)) := by
      rw [shiftLeft_mul_zpow, zpow_zero, mul_one]
      exact_mod_cast hn
    generalize n <<< 53 = m at hlog hone
    refine large_unpack_pack (large_roundWithAccuracy rfl ?_ hone)
    rw [fittedExponent]
    omega

theorem unpack_hundred : (100.0 : Float).toModel.unpack =
    .finite .positive 7036874417766400 (-46) (by decide) := by rfl

/-- A hundredth of a finite float is finite. -/
theorem isFinite_div_hundred (h : x.isFinite = true) : (x / 100.0).isFinite = true := by
  refine isFinite_div_of_large h ?_
  rw [unpack_hundred]
  exact ⟨by decide, by decide, by decide⟩

end ProposalReview.Decimal
