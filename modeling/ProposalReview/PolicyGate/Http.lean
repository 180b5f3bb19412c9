import ProposalReview.PolicyGate.Verdict
import ProposalReview.Settings
/-!
The policy gate over HTTP.

A request is posted to the gate's address as JSON, with the workspace in a header of its own. Whatever
keeps a reply from arriving makes the gate unreachable, and so does an address or a workspace that no
request can be made of. A reply counts only if its status means success; what follows another status is
not looked at, so it makes no difference whether it arrives.
-/

namespace ProposalReview

/-- A request to a policy gate. -/
structure HttpRequest where
  url : String
  /-- The value of the header `x-workspace-id`. -/
  workspace : String
  body : String
  deriving DecidableEq, Repr

/-- What is sent to an address. -/
def HttpRequest.ofGateRequest (url : String) (r : GateRequest) : HttpRequest where
  url := url
  workspace := r.workspace
  body := r.toJson.compact

/-- What a server sends back: first a status, and then bytes, or what kept them from arriving. -/
structure HttpReply where
  status : Nat
  body : Except String Bytes

namespace HttpReply

/-- Whether a status means success. -/
def succeeds (r : HttpReply) : Bool := decide (200 ≤ r.status) && decide (r.status < 300)

/-- The object that a server sends back. -/
def read (r : HttpReply) : Except GateError JsonObject :=
  if r.succeeds then
    match r.body with
    | .ok bytes => decodeReply (Text.decode bytes)
    | .error detail => .error (.unreachable detail)
  else .error (.httpStatus r.status)

end HttpReply

/-- How requests are exchanged for replies within a deadline. An exchange fails with what kept the
status from arriving, or the request from being made. -/
abbrev HttpExchange (m : Type → Type) := Span → HttpRequest → m (Except String HttpReply)

/-- Posts a request to the policy gate and gives the object that it replies with. -/
def GateRequest.post {m : Type → Type} [Monad m] (exchange : HttpExchange m)
    (s : PolicyGateSettings) (r : GateRequest) : m (Except GateError JsonObject) := do
  match ← exchange s.timeout (.ofGateRequest s.url r) with
  | .ok reply => pure reply.read
  | .error detail => pure (.error (.unreachable detail))

end ProposalReview
