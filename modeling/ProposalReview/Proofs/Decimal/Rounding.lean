import ProposalReview.Proofs.Decimal.Packing
/-!
When a rounded value is finite.

An operation yields a mantissa and an exponent, and how far the exact result lies above them. Bits are
dropped until the mantissa fits the format. Two bits keep account of what is dropped, so that the
mantissa is still rounded to the nearest; and if that makes it the next power of two, one more bit goes.

    exact result   |----------|----------|----------|-->
                                 ^ mantissa + fraction
    first bit      whether the fraction is a half or more
    second bit     whether there is more to it than that

So a result is finite just when it is less than half a unit of the last place above the greatest float.
-/

namespace ProposalReview.Decimal

open Float.Model Float.Model.UnpackedFloat

theorem targetExponent_binary64 (t : Int) :
    Format.binary64.targetExponent t = max (t - 53) (-1074) := rfl

/-! ### What is dropped -/

/-- How far a number is above a natural one, short of the next. -/
def LiesAbove (m : Nat) (q : ℚ) : Accuracy → Prop
  | .exact => q = m
  | .inexact .lt => m < q ∧ q < m + 1 / 2
  | .inexact .eq => q = m + 1 / 2
  | .inexact .gt => m + 1 / 2 < q ∧ q < m + 1

/-- Whether a mantissa with its two bits stands for a number. -/
def StandsFor (em : ExtendedMantissa) (q : ℚ) : Prop := LiesAbove em.mantissa q em.accuracy

variable {em : ExtendedMantissa} {q : ℚ}

theorem StandsFor.between (h : StandsFor em q) : (em.mantissa : ℚ) ≤ q ∧ q < em.mantissa + 1 := by
  obtain ⟨m, r, s⟩ := em
  rcases r <;> rcases s <;> simp only [StandsFor, ExtendedMantissa.accuracy, LiesAbove] at h ⊢
  · rw [h]
    exact ⟨le_rfl, lt_add_one _⟩
  all_goals constructor <;> linarith

/-- Dropping a bit halves the number. The bit becomes the first one, and what the two bits told of
before is less than a half now. -/
theorem StandsFor.shiftRightOne (h : StandsFor em q) : StandsFor em.shiftRightOne (q / 2) := by
  obtain ⟨m, r, s⟩ := em
  have hsplit : (m : ℚ) = 2 * (m / 2 : ℕ) + (m % 2 : ℕ) := by
    exact_mod_cast (Nat.div_add_mod m 2).symm
  rcases Nat.mod_two_eq_zero_or_one m with hbit | hbit <;> rcases r <;> rcases s <;>
    simp only [StandsFor, ExtendedMantissa.shiftRightOne, ExtendedMantissa.accuracy, LiesAbove,
      hbit, hsplit, bne_self_eq_false, Bool.or_false, Bool.or_true, Nat.cast_zero, Nat.cast_one,
      Nat.reduceBneDiff] at h ⊢
  all_goals first | linarith | (constructor <;> linarith)

theorem StandsFor.shiftRight (h : StandsFor em q) (n : Nat) : StandsFor (em >>> n) (q / 2 ^ n) := by
  change StandsFor (n.repeat ExtendedMantissa.shiftRightOne em) _
  induction n with
  | zero => simpa [Nat.repeat] using h
  | succ n ih =>
    rw [pow_succ, ← div_div]
    exact ih.shiftRightOne

/-- Rounding is to the nearest, and of two to the even one. -/
theorem LiesAbove.roundToNearestEven {m : Nat} {acc : Accuracy} (h : LiesAbove m q acc) :
    acc.roundToNearestEven m =
      if q < m + 1 / 2 ∨ q = m + 1 / 2 ∧ m % 2 = 0 then m else m + 1 := by
  rcases acc with _ | _ | _ | _ <;> simp only [LiesAbove] at h <;>
    simp only [Accuracy.roundToNearestEven]
  · rw [if_pos (.inl (by linarith))]
  · rw [if_pos (.inl h.2)]
  · rcases Nat.mod_two_eq_zero_or_one m with heven | hodd
    · rw [if_pos (.inr ⟨h, heven⟩), heven, Nat.add_zero]
    · rw [if_neg (by rintro (hlt | ⟨-, heven⟩) <;> [linarith; omega]), hodd]
  · rw [if_neg (by rintro (hlt | ⟨heq, -⟩) <;> linarith)]

/-- An even number is not reached just when it is more than a half away. -/
theorem StandsFor.roundedMantissa_lt_iff (h : StandsFor em q) {n : Nat} (hn : n % 2 = 0) :
    em.roundedMantissa < n ↔ q < n - 1 / 2 := by
  obtain ⟨hle, hlt⟩ := h.between
  rw [ExtendedMantissa.roundedMantissa, LiesAbove.roundToNearestEven h]
  rcases lt_trichotomy (em.mantissa + 1) n with hbelow | rfl | habove
  · have hm : (em.mantissa : ℚ) + 2 ≤ n := by exact_mod_cast hbelow
    exact iff_of_true (by split_ifs <;> omega) (by linarith)
  · -- only here it matters whether the mantissa is rounded up, and it is odd
    have hodd : em.mantissa % 2 ≠ 0 := by omega
    simp only [hodd, and_false, or_false, Nat.cast_add, Nat.cast_one]
    split_ifs with hdown
    · exact iff_of_true (by omega) (by linarith)
    · exact iff_of_false (by omega) (by linarith)
  · have hm : (n : ℚ) ≤ em.mantissa := by exact_mod_cast Nat.lt_succ_iff.mp habove
    exact iff_of_false (by split_ifs <;> omega) (by linarith)

theorem mantissa_le_roundedMantissa (em : ExtendedMantissa) : em.mantissa ≤ em.roundedMantissa := by
  rw [ExtendedMantissa.roundedMantissa]
  rcases em.accuracy with _ | _ | _ | _ <;> simp only [Accuracy.roundToNearestEven] <;> omega

theorem roundedMantissa_le (em : ExtendedMantissa) : em.roundedMantissa ≤ em.mantissa + 1 := by
  rw [ExtendedMantissa.roundedMantissa]
  rcases em.accuracy with _ | _ | _ | _ <;> simp only [Accuracy.roundToNearestEven] <;> omega

theorem mantissa_ofMantissaAndAccuracy (m : Nat) (acc : Accuracy) :
    (ExtendedMantissa.ofMantissaAndAccuracy m acc).mantissa = m := by
  rcases acc with _ | _ | _ | _ <;> rfl

theorem standsFor_ofMantissaAndAccuracy {m : Nat} {acc : Accuracy} (h : LiesAbove m q acc) :
    StandsFor (ExtendedMantissa.ofMantissaAndAccuracy m acc) q := by
  rcases acc with _ | _ | _ | _ <;> exact h

theorem liesAbove_fraction (m : Nat) {num den : Nat} (h : num < den) :
    LiesAbove m (m + num / den) (accuracyOfFraction num den) := by
  have hden : (0 : ℚ) < den := by exact_mod_cast (Nat.zero_le num).trans_lt h
  have hlt : (num : ℚ) < den := by exact_mod_cast h
  rw [accuracyOfFraction]
  rcases Nat.eq_zero_or_pos num with rfl | hpos
  · simp [LiesAbove]
  rw [if_neg hpos.ne']
  have hnum : (0 : ℚ) < num / den := div_pos (by exact_mod_cast hpos) hden
  rcases hc : compare (2 * num) den <;> simp only [LiesAbove]
  · have hhalf : (2 * num : ℚ) < den := by exact_mod_cast Nat.compare_eq_lt.mp hc
    refine ⟨by linarith, add_lt_add_right ?_ _⟩
    rw [div_lt_div_iff₀ hden two_pos]
    linarith
  · have hhalf : (2 * num : ℚ) = den := by exact_mod_cast Nat.compare_eq_eq.mp hc
    refine congrArg _ ?_
    rw [div_eq_div_iff hden.ne' two_ne_zero]
    linarith
  · have hhalf : (den : ℚ) < 2 * num := by exact_mod_cast Nat.compare_eq_gt.mp hc
    refine ⟨add_lt_add_right ?_ _, add_lt_add_right ((div_lt_one hden).mpr hlt) _⟩
    rw [div_lt_div_iff₀ two_pos hden]
    linarith

/-! ### Fitting a mantissa -/

variable {s : Sign} {m : Nat} {e : Int} {acc : Accuracy}

/-- The exponent that the format asks for. -/
def fittedExponent (m : Nat) (e : Int) : Int := max ((m.log2 : Int) - 52 + e) (-1074)

theorem targetExponent_totalExponent (m : Nat) (e : Int) :
    Format.binary64.targetExponent (totalExponent m e) = fittedExponent m e := by
  rw [targetExponent_binary64, totalExponent, fittedExponent]
  omega

/-- A mantissa after so many of its bits are dropped that the rest fits. -/
def fittedMantissa (m : Nat) (e : Int) (acc : Accuracy) : ExtendedMantissa :=
  ExtendedMantissa.ofMantissaAndAccuracy m acc >>> (fittedExponent m e - e).toNat

theorem shiftToTargetExponent_eq (he : e ≤ fittedExponent m e) :
    shiftToTargetExponent .binary64 m e acc = (fittedMantissa m e acc, fittedExponent m e) := by
  rw [shiftToTargetExponent, shiftToExponent, targetExponent_totalExponent]
  refine Prod.ext rfl ?_
  change e + ((fittedExponent m e - e).toNat : Int) = _
  omega

theorem mantissa_shiftRight (em : ExtendedMantissa) (n : Nat) :
    (em >>> n).mantissa = em.mantissa / 2 ^ n := by
  change (n.repeat ExtendedMantissa.shiftRightOne em).mantissa = _
  induction n with
  | zero => simp [Nat.repeat]
  | succ n ih =>
    change (n.repeat ExtendedMantissa.shiftRightOne em).mantissa / 2 = _
    rw [ih, Nat.div_div_eq_div_mul, pow_succ]

theorem mantissa_fittedMantissa (m : Nat) (e : Int) (acc : Accuracy) :
    (fittedMantissa m e acc).mantissa = m / 2 ^ (fittedExponent m e - e).toNat := by
  rw [fittedMantissa, mantissa_shiftRight, mantissa_ofMantissaAndAccuracy]

theorem mantissa_fittedMantissa_lt (m : Nat) (e : Int) (acc : Accuracy) :
    (fittedMantissa m e acc).mantissa < 2 ^ 53 := by
  rw [mantissa_fittedMantissa]
  refine Nat.div_lt_of_lt_mul ?_
  rw [← pow_add]
  refine Nat.lt_log2_self.trans_le (Nat.pow_le_pow_right (by omega) ?_)
  rw [fittedExponent]
  omega

/-- A mantissa that fits has all its bits unless the exponent is the least one. -/
theorem le_mantissa_fittedMantissa (he : e ≤ fittedExponent m e) (hleast : -1074 < fittedExponent m e) :
    2 ^ 52 ≤ (fittedMantissa m e acc).mantissa := by
  rw [mantissa_fittedMantissa, Nat.le_div_iff_mul_le (Nat.two_pow_pos _), ← pow_add]
  rw [fittedExponent] at he hleast ⊢
  have hm : m ≠ 0 := by
    rintro rfl
    rw [Nat.log2_zero] at he hleast
    omega
  refine (Nat.pow_le_pow_right (by omega) ?_).trans (Nat.log2_self_le hm)
  omega

theorem standsFor_fittedMantissa (h : LiesAbove m q acc) (he : e ≤ fittedExponent m e) :
    StandsFor (fittedMantissa m e acc) (q * 2 ^ e / 2 ^ fittedExponent m e) := by
  have hscale : q * 2 ^ e / 2 ^ fittedExponent m e = q / 2 ^ (fittedExponent m e - e).toNat := by
    rw [← zpow_natCast, Int.toNat_of_nonneg (by omega), zpow_sub₀ two_ne_zero, div_div_eq_mul_div]
  rw [hscale]
  exact (standsFor_ofMantissaAndAccuracy h).shiftRight _

/-! ### Rounding -/

theorem fittedExponent_of_lt (hm : m < 2 ^ 53) (he : -1074 ≤ e) : fittedExponent m e ≤ e := by
  have hlog : m.log2 ≤ 52 := by
    rcases eq_or_ne m 0 with rfl | hzero
    · simp
    · exact Nat.lt_succ_iff.mp ((Nat.log2_lt hzero).mpr hm)
  rw [fittedExponent]
  omega

theorem shiftToTargetExponent_rounded (hm : m ≤ 2 ^ 53) (he : -1074 ≤ e) :
    shiftToTargetExponent .binary64 m e .exact =
      if m < 2 ^ 53 then (⟨m, false, false⟩, e) else (⟨2 ^ 52, false, false⟩, e + 1) := by
  rw [shiftToTargetExponent, shiftToExponent, targetExponent_totalExponent]
  split_ifs with hlt
  · have hnone : (fittedExponent m e - e).toNat = 0 := by
      have := fittedExponent_of_lt hlt he
      omega
    rw [hnone]
    exact Prod.ext rfl (add_zero e)
  · obtain rfl : m = 2 ^ 53 := by omega
    have hone : (fittedExponent (2 ^ 53) e - e).toNat = 1 := by
      rw [fittedExponent, Nat.log2_two_pow]
      omega
    rw [hone]
    rfl

/-- A value is rounded once its mantissa fits. If that makes it the next power of two, it is halved and
the exponent is one more. -/
theorem roundWithAccuracy_eq (s : Sign) (he : e ≤ fittedExponent m e) :
    roundWithAccuracy .binary64 s m e acc =
      if h : (fittedMantissa m e acc).roundedMantissa = 0 then .zero s
      else if (fittedMantissa m e acc).roundedMantissa < 2 ^ 53 then
        .finite s (fittedMantissa m e acc).roundedMantissa (fittedExponent m e) (Nat.pos_of_ne_zero h)
      else .finite s (2 ^ 52) (fittedExponent m e + 1) (by decide) := by
  have hle := (roundedMantissa_le (fittedMantissa m e acc)).trans (mantissa_fittedMantissa_lt m e acc)
  have hleast : -1074 ≤ fittedExponent m e := le_max_right _ _
  have hshift := shiftToTargetExponent_rounded hle hleast
  have hround : ∀ p, shiftToTargetExponent .binary64 (fittedMantissa m e acc).roundedMantissa
      (fittedExponent m e) .exact = p → roundWithAccuracy .binary64 s m e acc =
        if h : p.1.mantissa = 0 then .zero s
        else .finite s p.1.mantissa p.2 (Nat.pos_of_ne_zero h) := by
    rintro _ rfl
    simp only [roundWithAccuracy, shiftToTargetExponent_eq he]
  by_cases hr : (fittedMantissa m e acc).roundedMantissa < 2 ^ 53
  · rw [if_pos hr] at hshift
    rw [hround _ hshift]
    simp only [if_pos hr]
  · rw [if_neg hr] at hshift
    have hne : (fittedMantissa m e acc).roundedMantissa ≠ 0 := by omega
    rw [hround _ hshift, dif_neg hne, if_neg hr]
    rfl

/-- The least magnitude that is rounded to infinity: half a unit of the last place above the greatest
float. -/
def limit : ℚ := 2 ^ 1024 - 2 ^ 970

theorem limit_eq : limit = (2 ^ 54 - 1) * 2 ^ (970 : Int) :=
  calc limit = 2 ^ 54 * 2 ^ 970 - 2 ^ 970 := congrArg (· - _) (pow_add 2 54 970)
    _ = (2 ^ 54 - 1) * 2 ^ 970 := (sub_one_mul _ _).symm
    _ = (2 ^ 54 - 1) * 2 ^ (970 : Int) := congrArg _ (zpow_natCast 2 970).symm

theorem limit_pos : 0 < limit := by
  rw [limit_eq]
  positivity

theorem lt_limit {t : Int} (ht : t < 971) (hq : q < 2 ^ 53) : q * 2 ^ t < limit := by
  have hpow : (2 : ℚ) ^ t ≤ 2 ^ (970 : Int) := zpow_le_zpow_right₀ one_le_two (by omega)
  calc q * 2 ^ t < 2 ^ 53 * 2 ^ t := mul_lt_mul_of_pos_right hq (zpow_pos two_pos t)
    _ ≤ 2 ^ 53 * 2 ^ (970 : Int) := by gcongr
    _ < (2 ^ 54 - 1) * 2 ^ (970 : Int) := by gcongr; norm_num
    _ = limit := limit_eq.symm

theorem lt_limit_iff : q * 2 ^ (971 : Int) < limit ↔ q < 2 ^ 53 - 1 / 2 := by
  have hhalf : limit = (2 ^ 53 - 1 / 2) * 2 ^ (971 : Int) := by
    rw [limit_eq, show (971 : Int) = 970 + 1 from rfl, zpow_add_one₀ two_ne_zero]
    ring
  rw [hhalf]
  exact mul_lt_mul_iff_left₀ (zpow_pos two_pos _)

theorem limit_le {t : Int} (ht : 971 < t) (hq : 2 ^ 52 ≤ q) : limit ≤ q * 2 ^ t := by
  have hpow : (2 : ℚ) ^ (972 : Int) ≤ 2 ^ t := zpow_le_zpow_right₀ one_le_two (by omega)
  calc limit = (2 ^ 54 - 1) * 2 ^ (970 : Int) := limit_eq
    _ ≤ 2 ^ 54 * 2 ^ (970 : Int) := by gcongr; norm_num
    _ = 2 ^ 52 * 2 ^ (972 : Int) := by
        rw [show (972 : Int) = 970 + 2 from rfl, zpow_add₀ two_ne_zero]
        ring
    _ ≤ q * 2 ^ t := by gcongr

/-- A result is finite once it is rounded just when it is below the limit. -/
theorem isFinite_pack_roundWithAccuracy (h : LiesAbove m q acc) (he : e ≤ fittedExponent m e) :
    (Float.Model.pack (roundWithAccuracy .binary64 s m e acc)).isFinite = true ↔ q * 2 ^ e < limit := by
  have hstands := standsFor_fittedMantissa h he
  have hround : (fittedMantissa m e acc).roundedMantissa < 2 ^ 53 ↔
      q * 2 ^ e / 2 ^ fittedExponent m e < 2 ^ 53 - 1 / 2 := by
    exact_mod_cast hstands.roundedMantissa_lt_iff (n := 2 ^ 53) (by decide)
  obtain ⟨hle, hlt⟩ := hstands.between
  have hbelow : ((fittedMantissa m e acc).mantissa : ℚ) + 1 ≤ 2 ^ 53 := by
    exact_mod_cast mantissa_fittedMantissa_lt m e acc
  have hfull : -1074 < fittedExponent m e → 2 ^ 52 ≤ (fittedMantissa m e acc).mantissa :=
    le_mantissa_fittedMantissa he
  have hrounded := mantissa_le_roundedMantissa (fittedMantissa m e acc)
  have hscaled : q * 2 ^ e = q * 2 ^ e / 2 ^ fittedExponent m e * 2 ^ fittedExponent m e :=
    (div_mul_cancel₀ _ (zpow_ne_zero _ two_ne_zero)).symm
  rw [roundWithAccuracy_eq s he, hscaled]
  generalize q * 2 ^ e / 2 ^ fittedExponent m e = p at *
  generalize fittedExponent m e = t at *
  generalize fittedMantissa m e acc = em at *
  rcases lt_trichotomy t 971 with hsmall | rfl | hgreat
  · refine iff_of_true ?_ (lt_limit hsmall (hlt.trans_le hbelow))
    split_ifs
    · exact isFinite_pack_zero s
    · exact (isFinite_pack_finite _).mpr (by omega)
    · exact (isFinite_pack_finite _).mpr (by omega)
  · -- with the greatest exponent it matters whether the rounding carries
    have hall := hfull (by omega)
    rw [lt_limit_iff, ← hround, dif_neg (by omega)]
    split_ifs with hr
    · exact iff_of_true ((isFinite_pack_finite _).mpr (by omega)) hr
    · exact iff_of_false (fun h => by have := (isFinite_pack_finite _).mp h; omega) hr
  · have hall := hfull (by omega)
    have hmantissa : (2 : ℚ) ^ 52 ≤ p := le_trans (by exact_mod_cast hall) hle
    refine iff_of_false ?_ (not_lt.mpr (limit_le hgreat hmantissa))
    rw [dif_neg (by omega)]
    split_ifs <;> (rw [isFinite_pack_finite]; omega)

/-! ### Values from one on -/

/-- Whether a value is at least one and has all bits of its mantissa, or is infinite. -/
def Large : UnpackedFloat → Prop
  | .finite _ m e _ => 2 ^ 52 ≤ m ∧ m < 2 ^ 53 ∧ -52 ≤ e
  | .infinity _ => True
  | _ => False

theorem large_roundWithAccuracy (h : LiesAbove m q acc) (he : e ≤ fittedExponent m e)
    (hq : 1 ≤ q * 2 ^ e) : Large (roundWithAccuracy .binary64 s m e acc) := by
  have hfitted : -52 ≤ fittedExponent m e := by
    have hlt : q < 2 ^ ((m.log2 : Int) + 1) := by
      refine (standsFor_ofMantissaAndAccuracy h).between.2.trans_le ?_
      rw [mantissa_ofMantissaAndAccuracy]
      exact_mod_cast Nat.lt_log2_self (n := m)
    have hone : (2 : ℚ) ^ (0 : Int) < 2 ^ ((m.log2 : Int) + 1 + e) := by
      rw [zpow_zero, zpow_add₀ two_ne_zero]
      exact hq.trans_lt (mul_lt_mul_of_pos_right hlt (zpow_pos two_pos e))
    have := (zpow_lt_zpow_iff_right₀ one_lt_two).mp hone
    rw [fittedExponent]
    omega
  have hfull : 2 ^ 52 ≤ (fittedMantissa m e acc).mantissa :=
    le_mantissa_fittedMantissa he (by omega)
  have hrounded := mantissa_le_roundedMantissa (fittedMantissa m e acc)
  rw [roundWithAccuracy_eq s he, dif_neg (by omega)]
  split_ifs with hr
  · exact ⟨by omega, hr, hfitted⟩
  · exact ⟨le_rfl, by decide, by omega⟩

theorem large_unpack_pack {u : UnpackedFloat} (h : Large u) : Large (Float.Model.pack u).unpack := by
  rcases u with s | _ | s | ⟨s, m, e, hm⟩
  · cases s <;> trivial
  · exact h.elim
  · exact h.elim
  by_cases hgreat : 971 < e
  · rw [pack_finite_of_lt hm hgreat]
    cases s <;> trivial
  · have hcanonical : Canonical (.finite s m e hm) := ⟨h.2.1, by have := h.2.2; omega, .inl h.1⟩
    rwa [unpack_pack hcanonical ((isFinite_pack_finite hm).mpr (by omega))]

end ProposalReview.Decimal
