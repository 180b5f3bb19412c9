import ProposalReview.Proofs.Decimal.Value
/-!
Rounding keeps the order.

Of two exact results the smaller one is not rounded to the greater float. If the exponents that the
format asks for differ, a full mantissa is on the greater side. If they are the same, the mantissas
decide; and if these are the same as well, the two bits do. So division by a positive float keeps the
order of the dividends.
-/

namespace ProposalReview.Decimal

open Float.Model Float.Model.UnpackedFloat

variable {x y z : Float} {a b : UnpackedFloat} {s : Sign} {m m' : Nat} {e e' : Int} {q q' : ℚ}
  {acc acc' : Accuracy} {em em' : ExtendedMantissa}

/-! ### Rounded magnitudes -/

/-- Of two numbers the smaller one is not rounded to the greater mantissa. -/
theorem StandsFor.roundedMantissa_mono (h : StandsFor em q) (h' : StandsFor em' q') (hle : q ≤ q') :
    em.roundedMantissa ≤ em'.roundedMantissa := by
  obtain ⟨hbelow, -⟩ := h.between
  obtain ⟨-, habove'⟩ := h'.between
  have hmantissa : em.mantissa ≤ em'.mantissa := by
    have : (em.mantissa : ℚ) < em'.mantissa + 1 := by linarith
    exact Nat.lt_succ_iff.mp (by exact_mod_cast this)
  rcases hmantissa.lt_or_eq with hlt | heq
  · exact (roundedMantissa_le em).trans (hlt.trans_le (mantissa_le_roundedMantissa em'))
  · rw [ExtendedMantissa.roundedMantissa, ExtendedMantissa.roundedMantissa,
      LiesAbove.roundToNearestEven h, LiesAbove.roundToNearestEven h', heq]
    split_ifs with hdown hdown' hdown'
    · exact le_rfl
    · exact Nat.le_succ _
    · refine absurd ?_ hdown
      rcases hdown' with hlt | ⟨hhalf, heven⟩
      · exact .inl (hle.trans_lt hlt)
      · rcases hle.lt_or_eq with hlt | rfl
        · exact .inl (hlt.trans_eq hhalf)
        · exact .inr ⟨hhalf, heven⟩
    · exact le_rfl

/-- The magnitude that a mantissa, an exponent and what lies above them are rounded to. -/
def roundedMagnitude (m : Nat) (e : Int) (acc : Accuracy) : ℚ :=
  (fittedMantissa m e acc).roundedMantissa * 2 ^ fittedExponent m e

theorem roundedMagnitude_le (h : LiesAbove m q acc) (he : e ≤ fittedExponent m e)
    (h' : LiesAbove m' q' acc') (he' : e' ≤ fittedExponent m' e') (hle : q * 2 ^ e ≤ q' * 2 ^ e') :
    roundedMagnitude m e acc ≤ roundedMagnitude m' e' acc' := by
  have hstands := standsFor_fittedMantissa h he
  have hstands' := standsFor_fittedMantissa h' he'
  have hscaled : ∀ (q : ℚ) (e t : Int), q * 2 ^ e = q * 2 ^ e / 2 ^ t * 2 ^ t := fun _ _ _ =>
    (div_mul_cancel₀ _ (zpow_ne_zero _ two_ne_zero)).symm
  rw [hscaled q e (fittedExponent m e), hscaled q' e' (fittedExponent m' e')] at hle
  have hlt' : ((fittedMantissa m' e' acc').mantissa : ℚ) + 1 ≤ 2 ^ 53 := by
    exact_mod_cast mantissa_fittedMantissa_lt m' e' acc'
  have hleast : -1074 ≤ fittedExponent m e := le_max_right _ _
  have hleast' : -1074 ≤ fittedExponent m' e' := le_max_right _ _
  rw [roundedMagnitude, roundedMagnitude]
  rcases lt_trichotomy (fittedExponent m e) (fittedExponent m' e') with ht | ht | ht
  · refine mul_zpow_le ?_ ?_ ht
    · exact_mod_cast (roundedMantissa_le _).trans (mantissa_fittedMantissa_lt m e acc)
    · exact_mod_cast (le_mantissa_fittedMantissa he' (by omega)).trans (mantissa_le_roundedMantissa _)
  · rw [ht] at hle hstands ⊢
    have hround := hstands.roundedMantissa_mono hstands'
      ((mul_le_mul_iff_left₀ (zpow_pos two_pos _)).mp hle)
    have : ((fittedMantissa m e acc).roundedMantissa : ℚ) ≤ (fittedMantissa m' e' acc').roundedMantissa := by
      exact_mod_cast hround
    gcongr
  · have hfull : (2 : ℚ) ^ 52 ≤ (fittedMantissa m e acc).mantissa := by
      exact_mod_cast le_mantissa_fittedMantissa he (by omega)
    have hless := mul_zpow_lt (hstands'.between.2.trans_le hlt') (hfull.trans hstands.between.1) ht
    exact absurd hle (not_le.mpr hless)

/-! ### Rounded values -/

/-- A rounded value is written as the format has it. -/
theorem canonical_roundWithAccuracy (s : Sign) (he : e ≤ fittedExponent m e) :
    Canonical (roundWithAccuracy .binary64 s m e acc) := by
  have hleast : -1074 ≤ fittedExponent m e := le_max_right _ _
  rw [roundWithAccuracy_eq s he]
  split_ifs with hzero hlt
  · trivial
  · refine ⟨hlt, hleast, or_iff_not_imp_right.mpr fun he' => ?_⟩
    exact (le_mantissa_fittedMantissa he (by omega)).trans (mantissa_le_roundedMantissa _)
  · exact ⟨by decide, by omega, .inl le_rfl⟩

theorem rational_roundWithAccuracy (s : Sign) (he : e ≤ fittedExponent m e) :
    rational (roundWithAccuracy .binary64 s m e acc)
      = s.apply (fittedMantissa m e acc).roundedMantissa * 2 ^ fittedExponent m e := by
  have hle := (roundedMantissa_le (fittedMantissa m e acc)).trans (mantissa_fittedMantissa_lt m e acc)
  rw [roundWithAccuracy_eq s he]
  split_ifs with hzero hlt
  · rw [hzero]
    cases s <;> simp [rational, Sign.apply]
  · rfl
  · obtain hcarry : (fittedMantissa m e acc).roundedMantissa = 2 ^ 53 := by omega
    rw [hcarry, rational, zpow_add_one₀ two_ne_zero]
    cases s <;> simp only [Sign.apply, Int.cast_neg, Nat.cast_pow, Nat.cast_ofNat] <;>
      ring

/-! ### Division by a positive float -/

section

variable {n : Nat} {f : Int}

/-- The magnitude that the quotient of `m * 2 ^ e` and `n * 2 ^ f` is rounded to. -/
def quotientMagnitude (m : Nat) (e : Int) (n : Nat) (f : Int) : ℚ :=
  roundedMagnitude (dividend m e n f / n) (quotientExponent m e n f)
    (accuracyOfFraction (dividend m e n f % n) n)

theorem quotientMagnitude_nonneg (m : Nat) (e : Int) (n : Nat) (f : Int) :
    0 ≤ quotientMagnitude m e n f := by
  rw [quotientMagnitude, roundedMagnitude]
  positivity

theorem quotientMagnitude_le (hm : 0 < m) (hm' : 0 < m') (hn : 0 < n)
    (h : (m : ℚ) * 2 ^ e ≤ m' * 2 ^ e') : quotientMagnitude m e n f ≤ quotientMagnitude m' e' n f := by
  refine roundedMagnitude_le (liesAbove_quotient hn) (quotientExponent_le hm hn)
    (liesAbove_quotient hn) (quotientExponent_le hm' hn) ?_
  rw [quotient_mul_zpow, quotient_mul_zpow]
  gcongr

theorem rational_div (s : Sign) {hm : 0 < m} {hn : 0 < n} :
    rational (UnpackedFloat.div .binary64 (.finite s m e hm) (.finite .positive n f hn))
      = s.apply 1 * quotientMagnitude m e n f := by
  have hsign : s / .positive = s := by cases s <;> rfl
  simp only [UnpackedFloat.div, divCore_eq, hsign]
  rw [rational_roundWithAccuracy s (quotientExponent_le hm hn)]
  cases s <;> simp [Sign.apply, quotientMagnitude, roundedMagnitude]

theorem rational_div_zero (s : Sign) {hn : 0 < n} :
    rational (UnpackedFloat.div .binary64 (.zero s) (.finite .positive n f hn)) = 0 := rfl

/-- Of two dividends the smaller one does not have the greater quotient. -/
theorem rational_div_mono {hn : 0 < n} (ha : Fits a) (hb : Fits b) (h : rational a ≤ rational b) :
    rational (UnpackedFloat.div .binary64 a (.finite .positive n f hn))
      ≤ rational (UnpackedFloat.div .binary64 b (.finite .positive n f hn)) := by
  rcases a with _ | _ | t | ⟨s, m, e, hm⟩
  · exact ha.elim
  · exact ha.elim
  · rcases b with _ | _ | t' | ⟨s', m', e', hm'⟩
    · exact hb.elim
    · exact hb.elim
    · exact le_rfl
    · have hpos' := mul_zpow_pos hm' e'
      have hq' := quotientMagnitude_nonneg m' e' n f
      rw [rational_div_zero, rational_div]
      cases s' <;> simp only [rational, Sign.apply, Int.cast_neg, Int.cast_natCast, Int.cast_one] at h ⊢ <;>
        linarith
  · have hpos := mul_zpow_pos hm e
    have hq := quotientMagnitude_nonneg m e n f
    rcases b with _ | _ | t' | ⟨s', m', e', hm'⟩
    · exact hb.elim
    · exact hb.elim
    · rw [rational_div_zero, rational_div]
      cases s <;> simp only [rational, Sign.apply, Int.cast_neg, Int.cast_natCast, Int.cast_one] at h ⊢ <;>
        linarith
    · have hpos' := mul_zpow_pos hm' e'
      have hq' := quotientMagnitude_nonneg m' e' n f
      rw [rational_div, rational_div]
      rcases s with _ | _ <;> rcases s' with _ | _ <;>
        simp only [rational, Sign.apply, Int.cast_neg, Int.cast_natCast, Int.cast_one, neg_mul, one_mul,
          neg_le_neg_iff] at h ⊢
      · exact quotientMagnitude_le hm' hm hn h
      · linarith
      · linarith
      · exact quotientMagnitude_le hm hm' hn h

theorem canonical_div {hn : 0 < n} (ha : Fits a) :
    Canonical (UnpackedFloat.div .binary64 a (.finite .positive n f hn)) := by
  rcases a with _ | _ | s | ⟨s, m, e, hm⟩
  · exact ha.elim
  · exact ha.elim
  · trivial
  · simp only [UnpackedFloat.div, divCore_eq]
    exact canonical_roundWithAccuracy _ (quotientExponent_le hm hn)

/-- A finite quotient stands for the rounded quotient. -/
theorem value_div {hn : 0 < n} (hx : x.isFinite = true) (hfinite : (x / y).isFinite = true)
    (hy : y.toModel.unpack = .finite .positive n f hn) : value (x / y)
      = rational (UnpackedFloat.div .binary64 x.toModel.unpack (.finite .positive n f hn)) := by
  have hdiv : (x / y).toModel = Float.Model.pack
      (UnpackedFloat.div .binary64 x.toModel.unpack (.finite .positive n f hn)) := by
    rw [← hy]
    rfl
  have hpacked : (x / y).toModel.isFinite = true := hfinite
  rw [hdiv] at hpacked
  rw [value, hdiv, unpack_pack (canonical_div (fits_unpack hx)) hpacked]

/-- Division of finite floats by a positive one keeps their order, if the quotients are finite. -/
theorem div_le_div {hn : 0 < n} (hz : z.toModel.unpack = .finite .positive n f hn)
    (hx : x.isFinite = true) (hy : y.isFinite = true) (hxz : (x / z).isFinite = true)
    (hyz : (y / z).isFinite = true) (h : x ≤ y) : x / z ≤ y / z := by
  rw [le_iff_value hxz hyz, value_div hx hxz hz, value_div hy hyz hz]
  exact rational_div_mono (fits_unpack hx) (fits_unpack hy) ((le_iff_value hx hy).mp h)

end

end ProposalReview.Decimal
