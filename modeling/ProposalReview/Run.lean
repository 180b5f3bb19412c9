import ProposalReview.Filing
import ProposalReview.Gates
import ProposalReview.Inbox
import ProposalReview.PolicyGate.Verdict
import ProposalReview.Samples
/-!
One run: scan, decide, ask the policy gate, carry out, summarise.

In a real run the gate is asked about every decision before any file moves, and the first failure
ends the run.
-/

namespace ProposalReview

/-- Why a run failed. -/
inductive RunError where
  | settings (e : SettingsError)
  | gate (file : String) (action : Action) (e : GateError)
  | store (e : StoreError)
  deriving DecidableEq, Repr

/-- The exit status for an error of the policy gate. -/
def GateError.exitStatus (_ : GateError) : Nat := 3

namespace RunError

/-- An error in words. -/
def message : RunError → String
  | .settings e => e.message
  | .gate file action e =>
    "policy gate blocked " ++ file ++ " (" ++ action.word ++ "): " ++ e.message
  | .store e => e.message

/-- The exit status for an error. -/
def exitStatus : RunError → Nat
  | .settings e => e.exitStatus
  | .gate _ _ e => e.exitStatus
  | .store _ => 1

end RunError

/-- The report of an error in the settings. -/
def SettingsError.report (e : SettingsError) : Json :=
  .object [("error", .string e.code), ("hint", .string e.hint)]

/-- The report of a gate that blocks what was requested for a file. -/
def GateError.report (file requested : String) (e : GateError) : Json :=
  .object [("error", .string "policy_gate_blocked_transition"), ("file", .string file),
    ("reason", .string e.message), ("requested_action", .string requested)]

/-- The report of an error, if it has one. -/
def RunError.report? : RunError → Option Json
  | .settings e => some e.report
  | .gate file action e => some (e.report file action.word)
  | .store _ => none

/-- What a run that succeeds gives. -/
structure Outcome where
  summary : Summary
  summaryPath : Path

namespace Run

/-- The local decision about a proposal. -/
def decideOn (gates : GateSettings) (now : RunClock) (f : ProposalFile) : Decision :=
  Candidate.decide gates f.path
    { name := f.name
      metadata := Metadata.ofText f.text
      ageHours := now.hoursSince f.modified }

variable {m : Type → Type} [Monad m]

/-- A step that may fail to store something. -/
def storing {α : Type} (x : ExceptT StoreError m α) : ExceptT RunError m α :=
  ExceptT.adapt RunError.store x

/-- Asks a gate about one decision and gives the decision with the gate's action. -/
def consultOn (review : GateRequest → m (Except GateError JsonObject)) (workspace : String)
    (d : Decision) : ExceptT RunError m Decision := do
  let reply ← (review (GateRequest.ofDecision workspace d) : m (Except GateError JsonObject))
  match reply.bind (verdict d.action) with
  | .ok a => pure (d.override a)
  | .error e => throw (.gate d.fileName d.action e)

/-- Asks a gate about decisions in order, up to the first failure. -/
def consult (review : GateRequest → m (Except GateError JsonObject)) (workspace : String) :
    List Decision → ExceptT RunError m (List Decision)
  | [] => pure []
  | d :: ds => do
    let d ← consultOn review workspace d
    let ds ← consult review workspace ds
    pure (d :: ds)

/-- The decisions that are carried out: the local ones, in a real run reviewed by the gate. -/
def reviewed (s : Settings) (gate : Option (GateRequest → m (Except GateError JsonObject)))
    (ds : List Decision) : ExceptT RunError m (List Decision) :=
  match s.mode, gate with
  | .dryRun, _ => pure ds
  | .real, some review => consult review s.workspace ds
  | .real, none => throw (.settings .gateRequired)

variable [Filesystem m]

/-- The filing of a run. -/
def filing (s : Settings) (now : RunClock) : Filing := ⟨s.dirs, s.mode, now⟩

/-- Writes the samples, if they are wanted, and makes the directories. -/
def setUp (s : Settings) (now : RunClock) : ExceptT StoreError m Unit := do
  if s.seedSamples then
    let _ ← Samples.seed s.dirs.inbox
  (filing s now).prepare

/-- Carries out decisions and writes the summary. -/
def carryOut (s : Settings) (now : RunClock) (ds : List Decision) : ExceptT StoreError m Outcome := do
  let records ← (filing s now).applyAll ds
  let summary := Summary.ofRecords now.timeUtc s.mode.isDryRun s.gates.minMarginRate records
  let path ← (filing s now).writeSummary summary
  pure ⟨summary, path⟩

/-- Checks the settings, sets up and scans the inbox: the proposals of a run. -/
def survey (s : Settings) (now : RunClock) : ExceptT RunError m (List ProposalFile) := do
  match s.check with
  | .error e => throw (.settings e)
  | .ok _ => pure ()
  storing (setUp s now)
  storing (Inbox.scan s.dirs.inbox)

/-- Runs once over the inbox. -/
def run (s : Settings) (gate : Option (GateRequest → m (Except GateError JsonObject)))
    (now : RunClock) : ExceptT RunError m Outcome := do
  let files ← survey s now
  let decisions ← reviewed s gate (files.map (decideOn s.gates now))
  storing (carryOut s now decisions)

end Run

end ProposalReview
