import Mathlib
import ProposalReview.Proofs.Gates
/-!
Which reasons a local decision gives.

There is a fixed list of grounds for refusal, each with its own code. The reasons are those codes of the
list whose ground is there, in the order of the list. Whether one ground is there is a matter of its own,
so none hides another, and the action goes by whether there is any. Besides there is one warning, which
goes by the margin rate; neither the reasons nor the action go by what is warned of.
-/

namespace ProposalReview

variable {s : GateSettings} {c : Candidate}

/-- What can be held against a proposal: the code, and when it is a reason. -/
def Candidate.grounds (s : GateSettings) (c : Candidate) : List (String × Prop) :=
  [(slaCode s.slaHours, c.ageHours > s.slaHours),
   ("prefix_rule_fail", ¬ s.nameRule.accepts c.name),
   ("missing_approval_id", ¬ c.metadata.hasApproval),
   ("approval_integrity_fail", ¬ c.metadata.hasApprovalIntegrity),
   ("missing_evidence", ¬ c.metadata.hasEvidence),
   ("missing_eval", ¬ c.metadata.hasEval),
   ("missing_learn", ¬ c.metadata.hasLearn),
   ("kpi_success_rate_fail", ¬ ∃ y, c.metadata.kpi.successRate = some y ∧ y ≥ s.minSuccess),
   ("kpi_drift_fail", ¬ ∃ y, c.metadata.kpi.drift = some y ∧ y ≤ s.maxDrift),
   ("kpi_reproducibility_fail", ¬ ∃ y, c.metadata.kpi.reproducibility = some y ∧ y ≥ s.minRepro),
   ("econ_invalid_negative_values",
     c.revenue s.toThresholds < 0.0 ∨ c.tokenCost s.toThresholds < 0.0)]

/-- The grounds are the failures of the gates, one of each. -/
theorem Candidate.grounds_eq (s : GateSettings) (c : Candidate) :
    c.grounds s = Gate.all.map fun g => (g.code s.toThresholds, g.fails s c = true) := by
  simp only [grounds, Gate.all, List.map_cons, List.map_nil, Gate.code, Gate.fails, negative_iff,
    Bool.not_eq_true', decide_eq_true_eq, ← Bool.not_eq_true, Option.any_eq_true]

theorem Candidate.reasons_sublist : (c.reasons s).Sublist ((c.grounds s).map Prod.fst) := by
  rw [grounds_eq, List.map_map]
  exact List.filter_sublist.map _

theorem Candidate.nodup_grounds : ((c.grounds s).map Prod.fst).Nodup := by
  have hall : Gate.all.Nodup := by decide
  rw [grounds_eq, List.map_map]
  exact hall.map (Gate.code_injective _)

theorem Candidate.mem_reasons_of_mem_grounds {ground : String × Prop} (h : ground ∈ c.grounds s) :
    ground.1 ∈ c.reasons s ↔ ground.2 := by
  rw [grounds_eq] at h
  obtain ⟨g, -, rfl⟩ := List.mem_map.mp h
  exact mem_reasons

/-! ### What is warned of -/

/-- Settings with another least margin rate that is not warned of. -/
def GateSettings.withLeastMargin (s : GateSettings) (least : Float) : GateSettings :=
  { s with minMarginRate := least }

/-- Whether two decisions differ in the warnings only. -/
def Decision.SameButWarnings (d d' : Decision) : Prop := ∃ ws, d' = { d with warnings := ws }

/-- The reasons do not depend on the least margin rate, and neither does anything else but the warnings. -/
theorem Candidate.decide_withLeastMargin (c : Candidate) (s : GateSettings) (path : Path)
    (least : Float) :
    (c.decide s path).SameButWarnings (c.decide (s.withLeastMargin least) path) := by
  have hfails : Gate.fails (s.withLeastMargin least) c = Gate.fails s c := by
    funext g
    cases g <;> rfl
  have hcode : Gate.code (s.withLeastMargin least).toThresholds = Gate.code s.toThresholds := by
    funext g
    cases g <;> rfl
  have hreasons : c.reasons (s.withLeastMargin least) = c.reasons s := by
    rw [Candidate.reasons, Candidate.reasons, hfails, hcode]
  refine ⟨c.warnings (s.withLeastMargin least).toThresholds, ?_⟩
  rw [Candidate.decide, Candidate.decide, hreasons]
  rfl

theorem Candidate.warnings_eq (t : Thresholds) (c : Candidate) :
    c.warnings t = [] ∨ c.warnings t = ["kpi_margin_rate_fail"] := by
  rw [warnings]
  split_ifs
  · exact .inr rfl
  · exact .inl rfl

/-- The reasons of a local decision are those codes of a fixed list, each of them once and in its order,
whose own ground is there. It demotes if there is any reason and promotes otherwise. The only warning is
that of the margin rate, and where that begins matters to nothing else. -/
theorem Candidate.decide_gives_reasons (s : GateSettings) (path : Path) (c : Candidate) :
    let d := c.decide s path
    d.reasons.Sublist ((c.grounds s).map Prod.fst) ∧ ((c.grounds s).map Prod.fst).Nodup ∧
    (∀ ground ∈ c.grounds s, ground.1 ∈ d.reasons ↔ ground.2) ∧
    d.action = (if d.reasons = [] then .promote else .demote) ∧
    (d.warnings = [] ∨ d.warnings = ["kpi_margin_rate_fail"]) ∧
    ∀ least, d.SameButWarnings (c.decide (s.withLeastMargin least) path) := by
  refine ⟨reasons_sublist, nodup_grounds, fun _ h => mem_reasons_of_mem_grounds h, ?_,
    c.warnings_eq s.toThresholds, c.decide_withLeastMargin s path⟩
  simp only [decide, List.isEmpty_iff]

end ProposalReview
