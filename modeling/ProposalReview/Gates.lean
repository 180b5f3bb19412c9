import ProposalReview.Decision.Decision
import ProposalReview.Proposal.Metadata
import ProposalReview.Settings
/-!
The local gates.

Every gate looks at every proposal, so a decision lists all failures in the order of the gates and
not just the first. A proposal is demoted if any gate fails. The margin rate only warns.
-/

namespace ProposalReview

/-- A gate, in the order in which failures are listed. -/
inductive Gate where
  | sla
  | name
  | approvalId
  | approvalIntegrity
  | evidence
  | eval
  | learn
  | successRate
  | drift
  | reproducibility
  | economics
  deriving DecidableEq, Repr

/-- All gates in order. -/
def Gate.all : List Gate :=
  [.sla, .name, .approvalId, .approvalIntegrity, .evidence, .eval, .learn, .successRate, .drift,
   .reproducibility, .economics]

/-- How floats are written in codes: positional from `10 ^ -4` below `10 ^ 16`. -/
def codeStyle : Decimal.Style where
  tie := .up
  least := -4
  greatest := 15
  plus := false

/-- The code of a proposal that is older than a number of hours. -/
def slaCode (hours : Float) : String :=
  "sla_exceeded>" ++ String.ofList (codeStyle.write hours) ++ "h"

/-- The code of a gate's failure. -/
def Gate.code (t : Thresholds) : Gate → String
  | .sla => slaCode t.slaHours
  | .name => "prefix_rule_fail"
  | .approvalId => "missing_approval_id"
  | .approvalIntegrity => "approval_integrity_fail"
  | .evidence => "missing_evidence"
  | .eval => "missing_eval"
  | .learn => "missing_learn"
  | .successRate => "kpi_success_rate_fail"
  | .drift => "kpi_drift_fail"
  | .reproducibility => "kpi_reproducibility_fail"
  | .economics => "econ_invalid_negative_values"

/-- The warning of a low margin rate. -/
def marginWarning : String := "kpi_margin_rate_fail"

/-- What the gates look at. -/
structure Candidate where
  name : String
  metadata : Metadata
  ageHours : Float

/-- The revenue, by default if the proposal gives none. -/
def Candidate.revenue (c : Candidate) (t : Thresholds) : Float :=
  c.metadata.kpi.revenueUsdc.getD t.defaultRevenueUsdc

/-- The token cost, by default if the proposal gives none. -/
def Candidate.tokenCost (c : Candidate) (t : Thresholds) : Float :=
  c.metadata.kpi.tokenCostUsdc.getD t.defaultTokenCostUsdc

/-- Whether the revenue or the token cost is negative. -/
def Candidate.negative (c : Candidate) (t : Thresholds) : Bool :=
  c.revenue t < 0.0 || c.tokenCost t < 0.0

/-- The part of the revenue that the token cost leaves; undefined for negative amounts and without
revenue. -/
def Candidate.marginRate? (c : Candidate) (t : Thresholds) : Option Float :=
  if c.negative t then none
  else if c.revenue t == 0.0 then none
  else some ((c.revenue t - c.tokenCost t) / c.revenue t)

/-- Whether a gate fails. -/
def Gate.fails (s : GateSettings) (c : Candidate) : Gate → Bool
  | .sla => c.ageHours > s.slaHours
  | .name => !s.nameRule.accepts c.name
  | .approvalId => !c.metadata.hasApproval
  | .approvalIntegrity => !c.metadata.hasApprovalIntegrity
  | .evidence => !c.metadata.hasEvidence
  | .eval => !c.metadata.hasEval
  | .learn => !c.metadata.hasLearn
  | .successRate => !c.metadata.kpi.successRate.any (· ≥ s.minSuccess)
  | .drift => !c.metadata.kpi.drift.any (· ≤ s.maxDrift)
  | .reproducibility => !c.metadata.kpi.reproducibility.any (· ≥ s.minRepro)
  | .economics => c.negative s.toThresholds

/-- The codes of the gates that fail. -/
def Candidate.reasons (s : GateSettings) (c : Candidate) : List String :=
  (Gate.all.filter (Gate.fails s c)).map (Gate.code s.toThresholds)

/-- The warning of a low margin rate, if there is cause for it. -/
def Candidate.warnings (t : Thresholds) (c : Candidate) : List String :=
  if (c.marginRate? t).any (· < t.minMarginRate) then [marginWarning] else []

/-- The figures with defaults filled in and the margin rate computed. -/
def Candidate.kpi (t : Thresholds) (c : Candidate) : Kpi :=
  { c.metadata.kpi with
    revenueUsdc := some (c.revenue t)
    tokenCostUsdc := some (c.tokenCost t)
    marginRate := c.marginRate? t }

/-- The local decision about a proposal at a path. -/
def Candidate.decide (s : GateSettings) (path : Path) (c : Candidate) : Decision :=
  let reasons := c.reasons s
  { file := path.display
    source := path
    action := if reasons.isEmpty then .promote else .demote
    reasons
    warnings := c.warnings s.toThresholds
    kpi := c.kpi s.toThresholds
    ageHours := c.ageHours }

end ProposalReview
