import Mathlib
import ProposalReview.Proofs.Decimal.Order
import ProposalReview.Proofs.Promotion
/-!
Which amounts a promotion is good for.

Some gates refuse what is beyond a bound, others ask for what keeps to it. The two differ where there is
no order: the age, the revenue and the token cost also pass where they cannot be compared with their
bound, the three rates pass only where they can. No number that a proposal states is to blame, as these
are finite; what has no order there is a setting.

    gate            asks for         bound is no number
    age             not above        passes
    amounts         not below zero   passes, if the proposal states none
    success rate    at least         fails
    drift           at most          fails
    reproducibility at least         fails
-/

namespace ProposalReview

open Decimal Proposal

variable {s : GateSettings} {c : Candidate} {path : Path}

/-- What a promotion says about the numbers that the gates compare, each of which may be any float. -/
structure Candidate.KeepsBounds (s : GateSettings) (c : Candidate) : Prop where
  age : c.ageHours ≤ s.slaHours ∨ c.ageHours.isNaN ∨ s.slaHours.isNaN
  revenue : 0.0 ≤ c.revenue s.toThresholds ∨
    c.metadata.kpi.revenueUsdc = none ∧ s.defaultRevenueUsdc.isNaN
  tokenCost : 0.0 ≤ c.tokenCost s.toThresholds ∨
    c.metadata.kpi.tokenCostUsdc = none ∧ s.defaultTokenCostUsdc.isNaN
  success : ∃ y, c.metadata.kpi.successRate = some y ∧ s.minSuccess ≤ y
  drift : ∃ y, c.metadata.kpi.drift = some y ∧ y ≤ s.maxDrift
  reproducible : ∃ y, c.metadata.kpi.reproducibility = some y ∧ s.minRepro ≤ y

/-- What a promotion says about a proposal's name and its marks. -/
structure Candidate.Marked (s : GateSettings) (c : Candidate) : Prop where
  named : s.nameRule.accepts c.name
  approved : c.metadata.hasApproval
  integrity : c.metadata.hasApprovalIntegrity
  evidence : c.metadata.hasEvidence
  eval : c.metadata.hasEval
  learn : c.metadata.hasLearn

/-- The amounts that a text states are numbers. -/
structure Metadata.StatesNumbers (m : Metadata) : Prop where
  revenue : ∀ x, m.kpi.revenueUsdc = some x → x.isNaN = false
  tokenCost : ∀ x, m.kpi.tokenCostUsdc = some x → x.isNaN = false

theorem Metadata.statesNumbers_ofText (text : List Char) : (ofText text).StatesNumbers where
  revenue _ h := isNaN_of_isFinite (isFinite_of_number? h)
  tokenCost _ h := isNaN_of_isFinite (isFinite_of_number? h)

/-- An amount that is stated as a number is not negative just when zero is at most that; the amount by
default need not be a number. -/
theorem not_lt_zero_getD {stated : Option Float} (h : ∀ x, stated = some x → x.isNaN = false)
    (default : Float) :
    ¬ stated.getD default < 0.0 ↔ 0.0 ≤ stated.getD default ∨ stated = none ∧ default.isNaN := by
  have hzero : (0.0 : Float).isNaN = false := by decide +kernel
  rw [not_lt_iff, hzero]
  cases stated with
  | none => simp only [Option.getD_none, Bool.false_eq_true, or_false, true_and]
  | some x =>
    simp only [Option.getD_some, h x rfl, Bool.false_eq_true, or_false, reduceCtorEq, false_and]

theorem Candidate.not_negative_iff (h : c.metadata.StatesNumbers) :
    c.negative s.toThresholds = false ↔
      (0.0 ≤ c.revenue s.toThresholds ∨
        c.metadata.kpi.revenueUsdc = none ∧ s.defaultRevenueUsdc.isNaN) ∧
      (0.0 ≤ c.tokenCost s.toThresholds ∨
        c.metadata.kpi.tokenCostUsdc = none ∧ s.defaultTokenCostUsdc.isNaN) := by
  have hrevenue := not_lt_zero_getD h.revenue s.defaultRevenueUsdc
  have hcost := not_lt_zero_getD h.tokenCost s.defaultTokenCostUsdc
  rw [Candidate.revenue, Candidate.tokenCost, ← hrevenue, ← hcost, ← not_or, ← Bool.not_eq_true]
  exact not_congr negative_iff

/-- A threshold of a rate that is no number promotes nothing, whatever a proposal states. -/
theorem Candidate.decide_demotes_of_isNaN
    (h : s.minSuccess.isNaN ∨ s.maxDrift.isNaN ∨ s.minRepro.isNaN) :
    (c.decide s path).action = .demote := by
  obtain ⟨g, hg⟩ : ∃ g, Gate.fails s c g := by
    rcases h with h | h | h
    · refine ⟨.successRate, ?_⟩
      simp [Gate.fails, not_le_of_isNaN (.inl h)]
    · refine ⟨.drift, ?_⟩
      simp [Gate.fails, not_le_of_isNaN (.inr h)]
    · refine ⟨.reproducibility, ?_⟩
      simp [Gate.fails, not_le_of_isNaN (.inl h)]
  exact decide_demotes.mpr ⟨g, hg⟩

/-- Whatever the settings, a proposal is promoted just when it is marked and keeps the bounds: the
rates are in order with their thresholds, the age and the amounts are in order with their bounds or
cannot be compared with them. -/
theorem Candidate.decide_promotes_iff_bounds (s : GateSettings) (path : Path) (name : String)
    (text : List Char) (age : Float) :
    let c : Candidate := ⟨name, Metadata.ofText text, age⟩
    (c.decide s path).action = .promote ↔ c.Marked s ∧ c.KeepsBounds s := by
  intro c
  have hage : ¬ c.ageHours > s.slaHours ↔
      c.ageHours ≤ s.slaHours ∨ c.ageHours.isNaN ∨ s.slaHours.isNaN := by
    rw [gt_iff_lt, not_lt_iff, or_comm (a := c.ageHours.isNaN = true)]
  have hamounts := not_negative_iff (s := s) (c := c) (Metadata.statesNumbers_ofText text)
  rw [decide_promotes, Gate.forall_iff]
  simp only [Gate.fails, decide_eq_false_iff_not, Bool.not_eq_false', hage, hamounts,
    Option.any_eq_true, decide_eq_true_eq, ge_iff_le]
  constructor
  · rintro ⟨hage, hname, hid, hintegrity, hevidence, heval, hlearn, hsuccess, hdrift, hrepro,
      hrevenue, hcost⟩
    exact ⟨⟨hname, hid, hintegrity, hevidence, heval, hlearn⟩,
      ⟨hage, hrevenue, hcost, hsuccess, hdrift, hrepro⟩⟩
  · rintro ⟨hmarked, hbounds⟩
    exact ⟨hbounds.age, hmarked.named, hmarked.approved, hmarked.integrity, hmarked.evidence,
      hmarked.eval, hmarked.learn, hbounds.success, hbounds.drift, hbounds.reproducible,
      hbounds.revenue, hbounds.tokenCost⟩

/-- Settings in which the bound of the age and both amounts by default are no numbers. -/
def Specimen.unordered (nan : Float) : GateSettings where
  nameRule := ⟨"", .empty⟩
  slaHours := nan
  defaultRevenueUsdc := nan
  defaultTokenCostUsdc := nan

/-- With settings that are read off `nan` a proposal is promoted at any age, here a thousand hours, and
with amounts of which nothing is known. -/
theorem Candidate.decide_promotes_unordered :
    ∃ nan, Decimal.readFloat? "nan".toList = some nan ∧
      let s := Specimen.unordered nan
      let c : Candidate := ⟨"a.md", Metadata.ofText leastProposal.toList, 1000.0⟩
      (c.decide s ⟨[]⟩).action = .promote ∧ ¬ c.ageHours ≤ s.slaHours ∧
        ¬ 0.0 ≤ c.revenue s.toThresholds ∧ ¬ 0.0 ≤ c.tokenCost s.toThresholds := by
  refine ⟨0.0 / 0.0, ?_⟩
  decide +kernel

end ProposalReview
