import ProposalReview.Filing.Filesystem
import ProposalReview.Incident
import ProposalReview.Settings
import ProposalReview.Summary
/-!
Carrying out decisions: moving files, filing incident records, and writing the summary.

A dry run moves and files nothing, but its records say where everything would go.
-/

namespace ProposalReview

/-- What carrying out decisions depends on. -/
structure Filing where
  dirs : Directories
  mode : RunMode
  now : RunClock

namespace Filing

/-- The name that a decision's file keeps when it is moved. -/
def nameOf (d : Decision) : Path :=
  match d.sourcePath.baseName? with
  | some n => ⟨n⟩
  | none => .ofString d.fileName

/-- Where a decision sends its file. -/
def destination (f : Filing) (d : Decision) : Path :=
  match d.action with
  | .promote => f.dirs.applied.join (nameOf d)
  | .demote => f.dirs.demoted.join (nameOf d)
  | .hold => d.sourcePath

/-- Where a decision's incident record goes. -/
def incidentPath (f : Filing) (d : Decision) : Path := Incident.path f.dirs.incidents d f.now

/-- The record of a decision: an incident for every decision with a reason. -/
def record (f : Filing) (d : Decision) : Record where
  decision := d
  destination := (f.destination d).display
  incident := if d.reasons.isEmpty then none else some (f.incidentPath d).display

/-- The path of the summary. -/
def summaryPath (f : Filing) : Path :=
  let kind := if f.mode.isDryRun then "dryrun" else "run"
  f.dirs.log.join (.ofString ("pipeline_manager_" ++ kind ++ "_" ++ f.now.stamp ++ ".json"))

variable {m : Type → Type} [Monad m] [Filesystem m]

/-- Makes a directory. -/
def create (p : Path) : ExceptT StoreError m Unit :=
  Filesystem.attempt .creating p (Filesystem.makeDirectories p)

/-- Makes the directories of a run, but for that of incidents. -/
def prepare (f : Filing) : ExceptT StoreError m Unit := do
  create f.dirs.inbox
  create f.dirs.applied
  create f.dirs.demoted
  create f.dirs.log

/-- Moves a decision's file, unless it is held. -/
def move (f : Filing) (d : Decision) : ExceptT StoreError m Unit :=
  if d.action = .hold then pure () else Filesystem.moveFile d.sourcePath (f.destination d)

/-- Writes a decision's incident record, if it has a reason. -/
def fileIncident (f : Filing) (d : Decision) : ExceptT StoreError m Unit :=
  if d.reasons.isEmpty then pure ()
  else do
    create f.dirs.incidents
    let path := f.incidentPath d
    let text := Incident.text d f.now f.mode.isDryRun
    Filesystem.attempt .writing path (Filesystem.write path (Text.encodeString text))

/-- Carries out a decision. -/
def apply (f : Filing) (d : Decision) : ExceptT StoreError m Record := do
  if f.mode = .real then
    f.move d
    f.fileIncident d
  pure (f.record d)

/-- Carries out decisions in order. -/
def applyAll (f : Filing) : List Decision → ExceptT StoreError m (List Record)
  | [] => pure []
  | d :: ds => do
    let r ← f.apply d
    let rs ← f.applyAll ds
    pure (r :: rs)

/-- Writes the summary. -/
def writeSummary (f : Filing) (s : Summary) : ExceptT StoreError m Path := do
  create f.dirs.log
  let path := f.summaryPath
  Filesystem.attempt .writing path (Filesystem.write path (Text.encodeString s.text))
  pure path

end Filing

end ProposalReview
