import ProposalReview.CommandLine
import ProposalReview.Run
/-!
The whole program: from arguments to an exit status and what is printed.
-/

namespace ProposalReview

/-- How the program ends. -/
structure Ending where
  status : Nat
  output : String
  /-- What is printed for the user beside the output. -/
  complaint : String := ""
  deriving DecidableEq, Repr

namespace Program

/-- The end without a run. -/
def ofUsage (u : CommandLine.Usage) : Ending where
  status := u.exitStatus
  output := match u with
    | .help => CommandLine.helpText
    | .version => CommandLine.versionText
    | _ => ""

/-- What is printed of a report. -/
def reportText : Option Json → String
  | some j => j.pretty ++ "\n"
  | none => ""

/-- The end on bad settings. -/
def ofSettingsError (e : SettingsError) : Ending where
  status := e.exitStatus
  output := reportText (some e.report)

/-- The end when there is no way to ask the policy gate. It is no proposal's fault, so the report names
none. -/
def ofGateError (e : GateError) : Ending where
  status := e.exitStatus
  output := reportText (some (e.report "" ""))

/-- What is said about an error that has no report. -/
def complaintText (e : RunError) : String :=
  match e.report? with
  | some _ => ""
  | none => "error: " ++ e.message ++ "\n"

/-- The end after a run. -/
def ofRun : Except RunError Outcome → Ending
  | .ok o => ⟨0, o.summary.text ++ "\n\nlog_file=" ++ o.summaryPath.display ++ "\n", ""⟩
  | .error e => ⟨e.exitStatus, reportText e.report?, complaintText e⟩

variable {m : Type → Type} [Monad m] [Filesystem m]

/-- The gate that a run has: only a real run has one. It fails if no client for the gate can be made. -/
def gateFor (connect : PolicyGateSettings → GateRequest → m (Except GateError JsonObject))
    (obstacle : PolicyGateSettings → Option String) (s : Settings) :
    Except GateError (Option (GateRequest → m (Except GateError JsonObject))) :=
  match s.mode, s.policyGate with
  | .real, some p =>
    match obstacle p with
    | some detail => .error (.unreachable detail)
    | none => .ok (some (connect p))
  | _, _ => .ok none

/-- The program on its arguments, given what makes patterns of texts, how to ask the policy gate at an
address, and what keeps a client for an address from being made, if anything does. -/
def run (compile : Pattern.Compiler)
    (connect : PolicyGateSettings → GateRequest → m (Except GateError JsonObject))
    (now : RunClock) (env : CommandLine.Environment) (args : List Bytes)
    (obstacle : PolicyGateSettings → Option String := fun _ => none) : m Ending :=
  match CommandLine.parse env args with
  | .error u => pure (ofUsage u)
  | .ok choices =>
    match choices.settings compile with
    | .error e => pure (ofSettingsError e)
    | .ok s =>
      match gateFor connect obstacle s with
      | .error e => pure (ofGateError e)
      | .ok gate => do
        let r ← (Run.run s gate now).run
        pure (ofRun r)

end Program

end ProposalReview
