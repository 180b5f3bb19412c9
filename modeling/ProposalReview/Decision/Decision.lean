import ProposalReview.Decision.Basic
import ProposalReview.Filing.Path
import ProposalReview.Json.Printer
/-!
Decisions and records, and how both are written as JSON.

A record is a decision that was carried out: where the file went, and which incident it left.
-/

namespace ProposalReview

/-- What is to be done with a proposal's file, why, and on what figures. -/
structure Decision where
  /-- The path of the proposal, for display. -/
  file : String
  /-- The path of the proposal itself; empty if the decision does not come from a scan. -/
  source : Path
  action : Action
  /-- Codes of the failures; the proposal is demoted if there are any. -/
  reasons : List String
  /-- Codes that advise only. -/
  warnings : List String
  kpi : Kpi
  ageHours : Float
  deriving DecidableEq

/-- The warning that the action is not the one decided locally. -/
def overrideWarning : String := "policy_gate_action_override"

namespace Decision

/-- The base name of the file, or all of it if it has none. -/
def fileName (d : Decision) : String :=
  match (Path.ofString d.file).baseName? with
  | some n => Text.decodeString n
  | none => d.file

/-- The base name of the file without its extension. -/
def fileStem (d : Decision) : String :=
  match (Path.ofString d.file).baseName? with
  | some n => Text.decodeString (Name.stem n)
  | none => d.fileName

/-- The path that the file is moved from. -/
def sourcePath (d : Decision) : Path := if d.source.isEmpty then Path.ofString d.file else d.source

/-- Whether the decision bears a warning. -/
def hasWarning (d : Decision) (code : String) : Bool := d.warnings.contains code

/-- Takes over an action, with a warning if it differs. -/
def override (d : Decision) (a : Action) : Decision :=
  if a = d.action then d else { d with action := a, warnings := d.warnings ++ [overrideWarning] }

end Decision

/-- A decision that was carried out. -/
structure Record where
  decision : Decision
  destination : String
  incident : Option String
  deriving DecidableEq

/-! ### As JSON -/

/-- An optional figure. -/
def Json.figure (x : Option Float) : Json := Json.ofOption Json.float x

/-- Key figures as JSON. -/
def Kpi.toJson (k : Kpi) : Json :=
  .object [("success_rate", Json.figure k.successRate), ("drift", Json.figure k.drift),
    ("reproducibility", Json.figure k.reproducibility), ("revenue_usdc", Json.figure k.revenueUsdc),
    ("token_cost_usdc", Json.figure k.tokenCostUsdc), ("margin_rate", Json.figure k.marginRate)]

/-- The members of a decision. -/
def Decision.members (d : Decision) : JsonObject :=
  [("file", .string d.file), ("action", .string d.action.word), ("reasons", Json.strings d.reasons),
    ("warnings", Json.strings d.warnings), ("kpi", d.kpi.toJson), ("age_hours", Json.float d.ageHours)]

/-- A decision as JSON. -/
def Decision.toJson (d : Decision) : Json := .object d.members

/-- A record as JSON: the members of its decision, and its own after them. -/
def Record.toJson (r : Record) : Json :=
  .object (r.decision.members ++
    [("destination", .string r.destination), ("incident", Json.ofOption Json.string r.incident)])

end ProposalReview
