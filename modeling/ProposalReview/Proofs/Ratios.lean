import ProposalReview.Proofs.Decimal.Monotone
import ProposalReview.Proofs.Promotion
/-!
Which ratios lie between zero and one.

A ratio is written as a number, and a hundredth of the number is taken if there is a percent sign or if
the number is above one. Nothing is asked of the number itself. Taking hundredths keeps the order of
floats, so a ratio is at most one just when the number is at most a hundred, and it is not negative just
when the number is not, unless the hundredth is so small that it is rounded to zero.

    written   950   250%   -5   -5%     100   1%    0.5   -1e-323%
    ratio     9.5   2.5    -5   -0.05   1     0.01  0.5   -0
-/

namespace ProposalReview

open Decimal Proposal

variable {x y : Float} {text : List Char} {f : Field}

namespace Decimal

/-! ### Hundredths -/

/-- Hundredths of finite floats are in their order. -/
theorem div_hundred_le_div_hundred (hx : x.isFinite = true) (hy : y.isFinite = true) (h : x ≤ y) :
    x / 100.0 ≤ y / 100.0 :=
  div_le_div unpack_hundred hx hy (isFinite_div_hundred hx) (isFinite_div_hundred hy) h

/-- The float next to a hundred. -/
def aboveHundred : Float := 100.00000000000001

theorem unpack_aboveHundred : aboveHundred.toModel.unpack =
    .finite .positive 7036874417766401 (-46) (by decide) := by rfl

/-- The least float whose hundredth is rounded to zero. -/
def vanishing : Float := -2.47e-322

theorem vanishing_eq : vanishing = Float.ofBits 0x8000000000000032 := by decide +kernel

theorem unpack_vanishing : vanishing.toModel.unpack = .finite .negative 50 (-1074) (by decide) := by
  rw [vanishing_eq]
  rfl

/-- The float next to that, away from zero. -/
def belowVanishing : Float := -2.5e-322

theorem belowVanishing_eq : belowVanishing = Float.ofBits 0x8000000000000033 := by decide +kernel

theorem unpack_belowVanishing :
    belowVanishing.toModel.unpack = .finite .negative 51 (-1074) (by decide) := by
  rw [belowVanishing_eq]
  rfl

theorem vanishing_le_zero : vanishing ≤ 0.0 := by
  rw [vanishing_eq]
  decide

/-- A hundredth is at most one just when the float is at most a hundred; there is no float between a
hundred and the next, and a hundredth of that is above one. -/
theorem div_hundred_le_one_iff (hx : x.isFinite = true) : x / 100.0 ≤ 1.0 ↔ x ≤ 100.0 := by
  have hhundred := isFinite_of_unpack unpack_hundred
  have hnext := isFinite_of_unpack unpack_aboveHundred
  constructor
  · intro hle
    rcases le_or_le_of_not_between hx hhundred hnext
      (not_between unpack_hundred unpack_aboveHundred).1 with hbelow | habove
    · exact hbelow
    · have hone := le_of_le_of_le (div_hundred_le_div_hundred hnext hx habove) hle
      exact absurd hone (by decide)
  · intro hle
    exact le_of_le_of_le (div_hundred_le_div_hundred hx hhundred hle) (by decide)

/-- A hundredth is not negative just when the float is not below the least one whose hundredth is
rounded to zero. -/
theorem zero_le_div_hundred_iff (hx : x.isFinite = true) : 0.0 ≤ x / 100.0 ↔ vanishing ≤ x := by
  have hvanishing := isFinite_of_unpack unpack_vanishing
  have hnext := isFinite_of_unpack unpack_belowVanishing
  constructor
  · intro hle
    rcases le_or_le_of_not_between hx hnext hvanishing
      (not_between unpack_vanishing unpack_belowVanishing).2 with hbelow | habove
    · have hzero := le_of_le_of_le hle (div_hundred_le_div_hundred hx hnext hbelow)
      rw [belowVanishing_eq] at hzero
      exact absurd hzero (by decide)
    · exact habove
  · intro hle
    have hzero : 0.0 ≤ vanishing / 100.0 := by
      rw [vanishing_eq]
      decide
    exact le_of_le_of_le hzero (div_hundred_le_div_hundred hvanishing hx hle)

/-! ### Percentages and other numbers -/

section

variable {percent : Prop} [Decidable percent]

/-- What is taken as a percentage if it says so or is above one is at most one just when the number is at
most a hundred. -/
theorem ratio_le_one_iff (hx : x.isFinite = true) :
    (if percent ∨ 1.0 < x then x / 100.0 else x) ≤ 1.0 ↔ x ≤ 100.0 := by
  split_ifs with hpercent
  · exact div_hundred_le_one_iff hx
  · have hle : x ≤ 1.0 := by
      by_contra hgreat
      exact hpercent (.inr ((not_le_iff hx rfl).mp hgreat))
    exact iff_of_true hle (le_of_le_of_le hle (by decide))

/-- It is not negative just when the number is not, or if a percentage vanishes. -/
theorem zero_le_ratio_iff (hx : x.isFinite = true) :
    0.0 ≤ (if percent ∨ 1.0 < x then x / 100.0 else x) ↔ 0.0 ≤ x ∨ percent ∧ vanishing ≤ x := by
  split_ifs with hpercent
  · rw [zero_le_div_hundred_iff hx]
    constructor
    · intro hle
      rcases hpercent with hsign | hgreat
      · exact .inr ⟨hsign, hle⟩
      · have hone : 1.0 ≤ x := (le_iff_value rfl hx).mpr ((lt_iff_value rfl hx).mp hgreat).le
        exact .inl (le_of_le_of_le (by decide) hone)
    · rintro (hle | ⟨-, hle⟩)
      · exact le_of_le_of_le vanishing_le_zero hle
      · exact hle
  · exact (or_iff_left fun hsign => hpercent (.inl hsign.1)).symm

end

end Decimal

/-! ### Ratios -/

namespace Metadata

/-- The ratios among the figures of a proposal, each with its field. -/
def ratios (m : Metadata) : List (Field × Option Float) :=
  [(.successRate, m.kpi.successRate), (.drift, m.kpi.drift), (.reproducibility, m.kpi.reproducibility)]

theorem holdsRatio_of_mem_ratios (h : (f, some y) ∈ (ofText text).ratios) : HoldsRatio text f y := by
  simp only [ratios, List.mem_cons, List.not_mem_nil, or_false, Prod.mk.injEq] at h
  rcases h with ⟨rfl, h⟩ | ⟨rfl, h⟩ | ⟨rfl, h⟩ <;> exact (number?_ratio_ofText rfl).mp h.symm

/-- A ratio comes from the number that its field is first filled with: a hundredth of it if there is a
percent sign or the number is above one, and else the number. So it is at most one just when the number
is at most a hundred. It is not negative just when the number is not, or if a percent sign stands with a
negative number whose hundredth is rounded to zero. -/
theorem ratio_normalised_iff (text : List Char) (f : Field) (y : Float)
    (h : (f, some y) ∈ (ofText text).ratios) :
    ∃ rest x, FillsFirst (Text.lines text) f rest ∧ Writes (Text.trim rest) x ∧
      (y = if '%' ∈ Text.trim rest ∨ 1.0 < x then x / 100.0 else x) ∧
      (y ≤ 1.0 ↔ x ≤ 100.0) ∧
      (0.0 ≤ y ↔ 0.0 ≤ x ∨ '%' ∈ Text.trim rest ∧ vanishing ≤ x) := by
  obtain ⟨rest, hfirst, ⟨x, hwrites, hy⟩, -⟩ := holdsRatio_of_mem_ratios h
  refine ⟨rest, x, hfirst, hwrites, hy, ?_, ?_⟩
  · rw [hy, ratio_le_one_iff hwrites.finite]
  · rw [hy, zero_le_ratio_iff hwrites.finite]

/-- A text with a ratio above a hundred, a negative one, and a percentage above a hundred. -/
def outOfRange : List Char := "success_rate: 950\ndrift: -5\nreproducibility: 250%".toList

theorem ratios_outOfRange : (ofText outOfRange).ratios =
    [(.successRate, some 9.5), (.drift, some (-5.0)), (.reproducibility, some 2.5)] := by
  decide +kernel

/-- The first two of its ratios are 9.5 and -5, as the numbers that they are written as are out of range. -/
theorem ratio_normalised_iff_outOfRange :
    (Field.successRate, some 9.5) ∈ (ofText outOfRange).ratios ∧
    (Field.drift, some (-5.0)) ∈ (ofText outOfRange).ratios ∧
    (∃ rest x, FillsFirst (Text.lines outOfRange) .successRate rest ∧ Writes (Text.trim rest) x ∧
      ¬ x ≤ 100.0) ∧
    ∃ rest x, FillsFirst (Text.lines outOfRange) .drift rest ∧ Writes (Text.trim rest) x ∧
      ¬ 0.0 ≤ x := by
  have hsuccess : (Field.successRate, some 9.5) ∈ (ofText outOfRange).ratios := by
    simp [ratios_outOfRange]
  have hdrift : (Field.drift, some (-5.0)) ∈ (ofText outOfRange).ratios := by
    simp [ratios_outOfRange]
  obtain ⟨rest, x, hfirst, hwrites, -, hone, -⟩ := ratio_normalised_iff _ _ _ hsuccess
  obtain ⟨rest', x', hfirst', hwrites', -, -, hzero⟩ := ratio_normalised_iff _ _ _ hdrift
  refine ⟨hsuccess, hdrift, ⟨rest, x, hfirst, hwrites, fun hle => ?_⟩,
    ⟨rest', x', hfirst', hwrites', fun hle => ?_⟩⟩
  · exact absurd (hone.mpr hle) (by decide)
  · exact absurd (hzero.mpr (.inl hle)) (by decide)

/-- Not every ratio that a text states lies between zero and one. -/
theorem ratio_leaves_unit : ¬ ∀ (text : List Char) (f : Field) (y : Float),
    (f, some y) ∈ (ofText text).ratios → 0.0 ≤ y ∧ y ≤ 1.0 := by
  intro h
  have hdrift : (Field.drift, some (-5.0)) ∈ (ofText outOfRange).ratios := by
    simp [ratios_outOfRange]
  exact absurd (h outOfRange .drift (-5.0) hdrift).1 (by decide)

end Metadata

end ProposalReview
