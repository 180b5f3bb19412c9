import ProposalReview.Decision.Basic
import ProposalReview.Proposal.Fields
import ProposalReview.Proposal.Number
/-!
What the gates need to know of a proposal: which marks of approval it bears, and its key figures.
-/

namespace ProposalReview

/-- The marks and figures of a proposal. The margin rate is not part of a proposal. -/
structure Metadata where
  hasApproval : Bool := false
  /-- Approval with an approver, a time and a reason. -/
  hasApprovalIntegrity : Bool := false
  hasEvidence : Bool := false
  hasEval : Bool := false
  hasLearn : Bool := false
  kpi : Kpi := {}

namespace Metadata

/-- The approval identifiers that mean no approval, in lower case. -/
def nullApprovals : List String := ["none", "null", "na"]

/-- Whether an approval identifier stands for an approval. -/
def isApproval (id : List Char) : Bool :=
  !nullApprovals.contains (String.ofList (id.map Char.toLower))

/-- The number that a field holds. -/
def number? (fs : Fields) (f : Field) (scale : Scale) : Option Float :=
  (fs.value? f).bind (Proposal.number? scale)

/-- The marks and figures that fields give. -/
def ofFields (fs : Fields) : Metadata :=
  let approval := (fs.value? .approvalId).any isApproval
  { hasApproval := approval
    hasApprovalIntegrity := approval &&
      [Field.approvedBy, .approvedAt, .approvalReason].all fun f => (fs.value? f).isSome
    hasEvidence := fs.isPresent .evidence
    hasEval := fs.isPresent .eval
    hasLearn := fs.isPresent .learn
    kpi :=
      { successRate := number? fs .successRate .ratio
        drift := number? fs .drift .ratio
        reproducibility := number? fs .reproducibility .ratio
        revenueUsdc := number? fs .revenueUsdc .magnitude
        tokenCostUsdc := number? fs .tokenCostUsdc .magnitude } }

/-- The marks and figures of a proposal's text. -/
def ofText (text : List Char) : Metadata := ofFields (Fields.ofText text)

end Metadata

end ProposalReview
