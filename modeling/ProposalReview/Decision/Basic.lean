/-!
Decisions about proposals.

A decision says what is to be done with a proposal's file, why, and on what figures.
-/

namespace ProposalReview

/-- What is done with a proposal's file. -/
inductive Action where
  /-- Move it to the applied directory. -/
  | promote
  /-- Move it to the demoted archive. -/
  | demote
  /-- Leave it where it is. -/
  | hold
  deriving DecidableEq, Repr

/-- The word for an action. -/
def Action.word : Action → String
  | .promote => "promote"
  | .demote => "demote"
  | .hold => "hold"

/-- The action that a word names. -/
def Action.ofWord? : String → Option Action
  | "promote" => some .promote
  | "demote" => some .demote
  | "hold" => some .hold
  | _ => none

/-- The key figures of a proposal. -/
structure Kpi where
  successRate : Option Float := none
  drift : Option Float := none
  reproducibility : Option Float := none
  revenueUsdc : Option Float := none
  tokenCostUsdc : Option Float := none
  marginRate : Option Float := none
  deriving DecidableEq

end ProposalReview
