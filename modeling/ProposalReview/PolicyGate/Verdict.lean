import ProposalReview.Decision.Decision
import ProposalReview.Json.Reader
import ProposalReview.Text.Blank
/-!
The policy gate: a remote authority that is asked about every decision of a real run.

A reply is a JSON object. A false `allow` demotes whatever else is said; then an `action` of promote
or demote counts; then a true `allow` lets the local action pass. Anything else is an error, so no
proposal is promoted by a reply that does not say so.
-/

namespace ProposalReview

/-- Why there is no verdict. -/
inductive GateError where
  | unreachable (detail : String)
  | httpStatus (status : Nat)
  | invalidJson (detail : Option String)
  | missingAllowOrAction
  deriving DecidableEq, Repr

/-- An error in words. -/
def GateError.message : GateError → String
  | .unreachable detail => "policy_gate_unreachable:" ++ detail
  | .httpStatus n => "policy_gate_http_" ++ String.ofList (Decimal.natDigits n)
  | .invalidJson none => "policy_gate_invalid_json"
  | .invalidJson (some detail) => "policy_gate_invalid_json:" ++ detail
  | .missingAllowOrAction => "policy_gate_missing_allow_or_action"

/-- What the gate is asked about one decision. The file is given by its base name only. -/
structure GateRequest where
  workspace : String
  file : String
  requestedAction : Action
  reasons : List String
  warnings : List String
  kpi : Kpi
  ageHours : Float
  deriving DecidableEq

/-- The request for a decision. -/
def GateRequest.ofDecision (workspace : String) (d : Decision) : GateRequest where
  workspace := workspace
  file := d.fileName
  requestedAction := d.action
  reasons := d.reasons
  warnings := d.warnings
  kpi := d.kpi
  ageHours := d.ageHours

/-- A request as JSON. -/
def GateRequest.toJson (r : GateRequest) : Json :=
  .object [("workspace_id", .string r.workspace), ("file", .string r.file),
    ("requested_action", .string r.requestedAction.word), ("reasons", Json.strings r.reasons),
    ("warnings", Json.strings r.warnings), ("kpi", r.kpi.toJson), ("age_hours", Json.float r.ageHours)]

/-- The action that a reply asks for, given the local one. -/
def verdict (localAction : Action) (reply : JsonObject) : Except GateError Action :=
  let allow := (reply.last? "allow").bind Json.bool?
  let action := ((reply.last? "action").bind Json.string?).bind Action.ofWord?
  if allow = some false then .ok .demote
  else if action = some .promote then .ok .promote
  else if action = some .demote then .ok .demote
  else if allow = some true then .ok localAction
  else .error .missingAllowOrAction

/-- The object that the text of a reply denotes; a blank text is an empty object. -/
def decodeReply (text : List Char) : Except GateError JsonObject :=
  if Text.allBlank text then .ok []
  else match Json.read text with
    | .ok (.object ms) => .ok ms
    | .ok _ => .error (.invalidJson none)
    | .error f => .error (.invalidJson (some (f.message text)))

end ProposalReview
