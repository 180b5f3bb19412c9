import Mathlib
import ProposalReview.Decimal.Binary
/-!
Floats as bits, and as a mantissa and an exponent.

The format has one way to write a finite value: with all bits of the mantissa, or with the least
exponent if there are not that many. What is written so is read back as it was, unless its exponent is
too great. `Binary.ofFloat` reads the same off the bits.

    exponent field   0                1 .. 2046           2047
    stands for       m * 2 ^ -1074    m * 2 ^ (f - 1075)  infinity, no number
    mantissa         m < 2 ^ 52       2 ^ 52 ≤ m < 2 ^ 53
-/

namespace ProposalReview.Decimal

open Float.Model Float.Model.UnpackedFloat

variable {s : Sign} {m : Nat} {e : Int}

theorem exponentBias_binary64 : Format.binary64.exponentBias = 1023 := rfl

/-! ### Which values are finite -/

/-- Only the greatest exponent field stands for what is not finite. -/
theorem isFinite_unpack {spec : Format} {b : BitVec spec.numBits} (h : unpackExponent b ≠ -1#_) :
    (UnpackedFloat.unpack spec b).isFinite = true := by
  rw [UnpackedFloat.unpack, if_neg h]
  split_ifs <;> rfl

theorem isFinite_pack_zero (s : Sign) : (Float.Model.pack (.zero s)).isFinite = true := by
  cases s <;> rfl

theorem isFinite_pack_infinity (s : Sign) : (Float.Model.pack (.infinity s)).isFinite = false := by
  cases s <;> rfl

theorem exponentField_overflows : 2 ^ Format.binary64.exponentBits ≤
    (e + Format.binary64.exponentBias + Format.binary64.mantissaBitsWithoutImplicit).toNat + 1 ↔
      971 < e := by
  change 2 ^ 11 ≤ (e + 1023 + 52).toNat + 1 ↔ _
  omega

theorem pack_finite_of_lt (hm : 0 < m) (he : 971 < e) :
    Float.Model.pack (.finite s m e hm) = Float.Model.pack (.infinity s) := by
  simp only [Float.Model.pack, UnpackedFloat.pack]
  simp only [if_pos (exponentField_overflows.mpr he)]

/-- A finite value is still finite once it is packed if its exponent is not too great. -/
theorem isFinite_pack_finite (hm : 0 < m) :
    (Float.Model.pack (.finite s m e hm)).isFinite = true ↔ e ≤ 971 := by
  by_cases hgreat : 971 < e
  · rw [pack_finite_of_lt hm hgreat, isFinite_pack_infinity]
    exact iff_of_false (by decide) (by omega)
  · refine iff_of_true ?_ (by omega)
    rw [Float.Model.isFinite, Float.Model.unpack, Float.Model.pack]
    refine isFinite_unpack ?_
    simp only [UnpackedFloat.pack]
    rw [if_neg (mt exponentField_overflows.mp hgreat)]
    split_ifs
    · rw [unpackExponent_packComponents]
      intro heq
      have hall := congrArg BitVec.toNat heq
      simp [exponentBias_binary64] at hall
      omega
    · rw [unpackExponent_packComponents]
      decide

/-! ### The one way to write a value -/

/-- Whether a value is written as the format has it: with all bits of the mantissa, or with the least
exponent. -/
def Canonical : UnpackedFloat → Prop
  | .finite _ m e _ => m < 2 ^ 53 ∧ -1074 ≤ e ∧ (2 ^ 52 ≤ m ∨ e = -1074)
  | _ => True

theorem toNat_fullMantissa (b : BitVec 52) : (1#1 ++ b).toNat = 2 ^ 52 + b.toNat := by
  rw [BitVec.toNat_append, ← Nat.shiftLeft_add_eq_or_of_lt b.isLt]
  rfl

/-- A finite float is written as the format has it, and its exponent is not too great. -/
theorem unpack_finite {x : Float.Model} {hm : 0 < m} (h : x.unpack = .finite s m e hm) :
    Canonical (.finite s m e hm) ∧ e ≤ 971 := by
  rw [Float.Model.unpack, UnpackedFloat.unpack] at h
  simp only [exponentBias_binary64] at h
  have hmantissa := (@unpackMantissa Format.binary64 x.toBits.toBitVec).isLt
  have hexponent := (@unpackExponent Format.binary64 x.toBits.toBitVec).isLt
  simp only at hmantissa hexponent
  split_ifs at h with hgreatest _ hleast
  · obtain ⟨-, rfl, rfl⟩ := UnpackedFloat.finite.inj h
    rw [hleast]
    exact ⟨⟨by omega, by decide, .inr (by decide)⟩, by decide⟩
  · obtain ⟨-, rfl, rfl⟩ := UnpackedFloat.finite.inj h
    have hbits := toNat_fullMantissa (@unpackMantissa Format.binary64 x.toBits.toBitVec)
    have hpos : (@unpackExponent Format.binary64 x.toBits.toBitVec).toNat ≠ 0 :=
      fun hzero => hleast (BitVec.eq_of_toNat_eq hzero)
    have hlt : (@unpackExponent Format.binary64 x.toBits.toBitVec).toNat ≠ 2047 :=
      fun hall => hgreatest (BitVec.eq_of_toNat_eq (hall.trans rfl))
    simp only [Nat.cast_ofNat]
    exact ⟨⟨by omega, by omega, .inl (by omega)⟩, by omega⟩

theorem canonical_unpack (x : Float.Model) : Canonical x.unpack := by
  rcases hx : x.unpack with _ | _ | _ | ⟨s, m, e, hm⟩
  · trivial
  · trivial
  · trivial
  · exact (unpack_finite hx).1

/-- An exponent field that is neither the least nor the greatest one goes with a full mantissa. -/
theorem unpack_fullMantissa {field : Nat} (hm : 0 < m) (hle : 2 ^ 52 ≤ m) (hlt : m < 2 ^ 53)
    (hpos : 0 < field) (hfield : field < 2047) :
    UnpackedFloat.unpack .binary64
      (packComponents .binary64 s (BitVec.ofNat 11 field) (BitVec.ofNat 52 m))
      = .finite s m (field - 1075) hm := by
  have hexponent : (BitVec.ofNat 11 field).toNat = field := by
    rw [BitVec.toNat_ofNat, Nat.mod_eq_of_lt (by omega)]
  have hmantissa : (1#1 ++ BitVec.ofNat 52 m).toNat = m := by
    rw [toNat_fullMantissa, BitVec.toNat_ofNat]
    omega
  have hgreatest : BitVec.ofNat 11 field ≠ -1#_ := by
    intro hall
    rw [hall] at hexponent
    simp at hexponent
    omega
  have hleast : BitVec.ofNat 11 field ≠ 0#_ := by
    intro hzero
    rw [hzero] at hexponent
    simp at hexponent
    omega
  simp only [UnpackedFloat.unpack, unpackExponent_packComponents, unpackMantissa_packComponents,
    unpackSign_packComponents, Sign.ofBitVec_toBitVec, exponentBias_binary64]
  rw [if_neg hgreatest, if_neg hleast, UnpackedFloat.finite.injEq, hexponent]
  exact ⟨rfl, hmantissa, by simp only [Nat.cast_ofNat]; omega⟩

/-- The least exponent field goes with a mantissa that is not full. -/
theorem unpack_partMantissa (hm : 0 < m) (hlt : m < 2 ^ 52) :
    UnpackedFloat.unpack .binary64 (packComponents .binary64 s 0#11 (BitVec.ofNat 52 m))
      = .finite s m (-1074) hm := by
  have hmantissa : (BitVec.ofNat 52 m).toNat = m := by
    rw [BitVec.toNat_ofNat, Nat.mod_eq_of_lt (by omega)]
  have hpos : BitVec.ofNat 52 m ≠ 0#_ := by
    intro hzero
    rw [hzero] at hmantissa
    simp at hmantissa
    omega
  simp only [UnpackedFloat.unpack, unpackExponent_packComponents, unpackMantissa_packComponents,
    unpackSign_packComponents, Sign.ofBitVec_toBitVec, exponentBias_binary64]
  rw [if_neg (by decide), if_pos trivial, dif_neg hpos, UnpackedFloat.finite.injEq]
  exact ⟨rfl, hmantissa, by decide⟩

/-- What is written as the format has it, and is finite once it is packed, is read back as it was. -/
theorem unpack_pack {u : UnpackedFloat} (hu : Canonical u)
    (hfinite : (Float.Model.pack u).isFinite = true) : (Float.Model.pack u).unpack = u := by
  rcases u with s | _ | s | ⟨s, m, e, hm⟩
  · rw [isFinite_pack_infinity] at hfinite
    cases hfinite
  · cases hfinite
  · cases s <;> rfl
  have he := (isFinite_pack_finite hm).mp hfinite
  obtain ⟨hlt, hleast, hfull⟩ := hu
  rw [Float.Model.unpack, Float.Model.pack]
  simp only [UnpackedFloat.pack]
  rw [if_neg (mt exponentField_overflows.mp (by omega))]
  by_cases hbits : 2 ^ 52 ≤ m
  · have hlog : m.log2 + 1 = Format.binary64.mantissaBits :=
      congrArg (· + 1) ((Nat.log2_eq_iff hm.ne').mpr ⟨hbits, hlt⟩)
    have hfield : (e + Format.binary64.exponentBias + (52 : Nat)).toNat = (e + 1075).toNat :=
      congrArg Int.toNat (add_assoc e 1023 52)
    rw [if_pos hlog, hfield, unpack_fullMantissa hm hbits hlt (by omega) (by omega)]
    rw [UnpackedFloat.finite.injEq]
    exact ⟨rfl, rfl, by omega⟩
  · obtain rfl : e = -1074 := hfull.resolve_left hbits
    have hlog : m.log2 < 52 := (Nat.log2_lt hm.ne').mpr (by omega)
    have hshort : m.log2 + 1 ≠ Format.binary64.mantissaBits := by
      change m.log2 + 1 ≠ 53
      omega
    rw [if_neg hshort, unpack_partMantissa hm (by omega)]

/-! ### What the bits of a float mean -/

theorem toNat_unpackMantissa (b : BitVec 64) :
    (@unpackMantissa Format.binary64 b).toNat = b.toNat % Nat.pow 2 52 := by
  simp [unpackMantissa, BitVec.extractLsb_toNat]

theorem toNat_unpackExponent (b : BitVec 64) :
    (@unpackExponent Format.binary64 b).toNat = b.toNat / Nat.pow 2 52 % 2048 := by
  simp [unpackExponent, BitVec.extractLsb_toNat, Nat.shiftRight_eq_div_pow]

theorem toNat_unpackSign (b : BitVec 64) :
    (@unpackSign Format.binary64 b).toNat = b.toNat / Nat.pow 2 63 := by
  have := b.isLt
  simp [unpackSign, BitVec.extractLsb_toNat, Nat.shiftRight_eq_div_pow]
  omega

/-- Whether a sign is the negative one. -/
def isNegative : Sign → Bool
  | .negative => true
  | .positive => false

/-- The meaning of an unpacked value. -/
def Binary.ofUnpacked : UnpackedFloat → Binary
  | .notANumber => .nan
  | .infinity s => .infinite (isNegative s)
  | .zero s => .finite (isNegative s) 0 (-1074)
  | .finite s m e _ => .finite (isNegative s) m e

theorem isNegative_ofBitVec (b : BitVec 1) : isNegative (Sign.ofBitVec b) = (b.toNat == 1) := by
  revert b
  decide

theorem ofFields_unpack (b : BitVec 64) :
    Binary.ofFields (b.toNat / Nat.pow 2 63 == 1) (b.toNat / Nat.pow 2 52 % 2048)
      (b.toNat % Nat.pow 2 52) = Binary.ofUnpacked (UnpackedFloat.unpack .binary64 b) := by
  have hall : (@unpackExponent Format.binary64 b).toNat = 2047 ↔ _ := BitVec.toNat_inj (y := -1#11)
  have hleast : (@unpackExponent Format.binary64 b).toNat = 0 ↔ _ := BitVec.toNat_inj (y := 0#11)
  have hzero : (@unpackMantissa Format.binary64 b).toNat = 0 ↔ _ := BitVec.toNat_inj (y := 0#52)
  simp only [← toNat_unpackSign, ← toNat_unpackExponent, ← toNat_unpackMantissa,
    ← isNegative_ofBitVec]
  rw [Binary.ofFields, UnpackedFloat.unpack]
  rw [if_congr hall rfl rfl, if_congr hleast rfl rfl, if_congr hzero rfl rfl]
  by_cases h1 : @unpackExponent Format.binary64 b = -1#11
  · rw [if_pos h1, if_pos h1]
    split_ifs <;> rfl
  rw [if_neg h1, if_neg h1]
  by_cases h2 : @unpackExponent Format.binary64 b = 0#11
  · rw [if_pos h2, if_pos h2]
    by_cases h3 : @unpackMantissa Format.binary64 b = 0#52
    · rw [dif_pos h3, h3]
      rfl
    · rw [dif_neg h3, Binary.ofUnpacked, h2]
      rfl
  · rw [if_neg h2, if_neg h2, Binary.ofUnpacked, toNat_fullMantissa]
    rfl

/-- The bits of a float mean what it is unpacked to. -/
theorem ofFloat_eq (x : Float) : Binary.ofFloat x = Binary.ofUnpacked x.toModel.unpack :=
  ofFields_unpack x.toModel.toBits.toBitVec

end ProposalReview.Decimal
