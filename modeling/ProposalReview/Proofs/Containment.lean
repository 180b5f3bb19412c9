import Mathlib
import ProposalReview.Proofs.Survey
/-!
Where the names of a proposal lead.

The base name of a scanned proposal is found again in the path as it is shown, whatever bytes the inbox and
the name are made of, and has no slash and is no double dot. So a name that is made from it and joined to
a directory leads to a path directly in that directory: of the incident, and of the file where it is
moved to.
-/

namespace ProposalReview

/-- Whether a path goes along the path of a directory and then one name further, which leads nowhere
else than into that directory. -/
structure Path.DirectlyIn (p dir : Path) (n : Name) : Prop where
  valid : Name.Valid n
  root : p.isAbsolute = dir.isAbsolute
  names : p.names = dir.names ++ [n]

namespace Path

variable {n : Name} {p dir : Path}

theorem DirectlyIn.baseName? (h : p.DirectlyIn dir n) : p.baseName? = some n := by
  rw [Path.baseName?, h.names, List.getLast?_concat]
  exact if_neg h.valid.not_parent

theorem names_eq (p : Path) : p.names
    = ((splitSlash p.bytes).filter (· ≠ [])).filter (· ≠ hereName) := by
  rw [names, List.filter_filter]
  congr 1
  funext n
  simp [and_comm]

theorem isAbsolute_child (h : Name.Valid n) (p : Path) : (p.child n).isAbsolute = p.isAbsolute := by
  rw [child, join, isAbsolute_name h, if_neg Bool.false_ne_true]
  cases hp : p.bytes with
  | nil => simpa [isAbsolute, hp] using isAbsolute_name h
  | cons b bs =>
    rw [List.getLast?_cons]
    simp only
    split_ifs <;> simp [isAbsolute, hp]

/-- A valid name that is joined to a path stays directly in it. -/
theorem directlyIn_child (h : Name.Valid n) (p : Path) : (p.child n).DirectlyIn p n := by
  refine ⟨h, isAbsolute_child h p, ?_⟩
  rw [names_eq, splitSlash_child h, List.filter_append, ← names_eq, List.filter_singleton]
  simp [h.not_here]

end Path

/-! ### Overridden decisions -/

variable {inbox : Path} {n : Name} {d : Decision}

@[simp] theorem Decision.fileName_override (d : Decision) (a : Action) :
    (d.override a).fileName = d.fileName := by
  rw [fileName, fileName, file_override]

@[simp] theorem Decision.fileStem_override (d : Decision) (a : Action) :
    (d.override a).fileStem = d.fileStem := by
  rw [fileStem, fileStem, file_override, fileName_override]

namespace Filing

theorem incidentPath_override (f : Filing) (d : Decision) (a : Action) :
    f.incidentPath (d.override a) = f.incidentPath d := by
  rw [incidentPath, incidentPath, Incident.path, Incident.path, Incident.fileName, Incident.fileName,
    Decision.fileStem_override]

/-- Each action sends a proposal to its own name. -/
theorem destination_override (f : Filing) (h : d.About inbox n) (hn : Name.Valid n) (a : Action) :
    f.destination (d.override a) = match a with
      | .promote => f.dirs.applied.child n
      | .demote => f.dirs.demoted.child n
      | .hold => inbox.child n := by
  have hsource : (d.override a).sourcePath = inbox.child n := by
    rw [← h.sourcePath hn, Decision.sourcePath, Decision.sourcePath, d.source_override, d.file_override]
  have hname : nameOf (d.override a) = ⟨n⟩ := by
    rw [nameOf, hsource, Path.baseName?_child hn]
  rw [destination, d.action_override, hname, hsource]
  rfl

end Filing

/-! ### Scanned proposals -/

namespace Run

/-- Whatever the inbox and the names in it are, the name of a scanned proposal is found again in its
decision, with the extension apart, and the incident and the moved file are directly in the directories
that are meant for them. A held file stays where it was scanned. -/
theorem names_stay_in_directories {w w' : World} {files : List ProposalFile} (hw : w.tree.WellFormed)
    (hscan : w.exec (Inbox.scan inbox) = (.ok files, w')) {p : ProposalFile} (hp : p ∈ files)
    (gates : GateSettings) (now : RunClock) (a : Action) (f : Filing) :
    let d := (decideOn gates now p).override a
    ∃ n, p.path.DirectlyIn inbox n ∧ d.fileName = Text.decodeString n ∧
      d.fileStem ++ ".md" = d.fileName ∧ '/' ∉ d.fileName.toList ∧
      (f.incidentPath d).DirectlyIn f.dirs.incidents
        (Text.encodeString ("INC-" ++ f.now.stamp ++ "-" ++ d.fileName)) ∧
      match a with
      | .promote => (f.destination d).DirectlyIn f.dirs.applied n
      | .demote => (f.destination d).DirectlyIn f.dirs.demoted n
      | .hold => f.destination d = p.path := by
  intro d
  obtain ⟨-, ns, hscanned⟩ := Inbox.scan_ok hw hscan
  obtain ⟨n, hread, hn⟩ := hscanned.of_mem hp
  have habout := about_decideOn hread gates now
  have hname : d.fileName = Text.decodeString n := by
    rw [Decision.fileName_override, habout.fileName hn hread.proposal]
  have hincident : (f.incidentPath d).DirectlyIn f.dirs.incidents
      (Text.encodeString ("INC-" ++ f.now.stamp ++ "-" ++ d.fileName)) := by
    rw [f.incidentPath_override, Decision.fileName_override,
      ← habout.incident_fileName hn hread.proposal]
    exact Path.directlyIn_child (habout.valid_incident hn hread.proposal f.now) f.dirs.incidents
  have hdestination := f.destination_override habout hn a
  refine ⟨n, ?_, hname, ?_, ?_, hincident, ?_⟩
  · rw [hread.path]
    exact Path.directlyIn_child hn inbox
  · rw [Decision.fileStem_override, Decision.fileName_override, habout.fileStem_append hn hread.proposal]
  · rw [hname, Text.decodeString, String.toList_ofList, Text.slash_mem_decode]
    exact hn.no_slash
  · cases a with
    | promote =>
      rw [hdestination]
      exact Path.directlyIn_child hn f.dirs.applied
    | demote =>
      rw [hdestination]
      exact Path.directlyIn_child hn f.dirs.demoted
    | hold =>
      rw [hdestination]
      exact hread.path.symm

/-- An inbox whose path is no text, with a proposal whose name is none either; the name begins with a dot
and has two more before its ending. -/
def dotted : Tree :=
  ⟨[([[0xff]], .directory), ([[0xff], [0x2e, 0xfe, 0x2e, 0x2e, 0x6d, 0x64]], .file [1] ⟨0, 0⟩)]⟩

/-- This proposal keeps its bytes where it is moved to, and its incident has its name as it is shown. -/
theorem names_stay_in_directories_dotted :
    let w : World := { tree := dotted }
    let inbox : Path := ⟨[0xff]⟩
    let name : Name := [0x2e, 0xfe, 0x2e, 0x2e, 0x6d, 0x64]
    let p : ProposalFile := ⟨inbox.child name, ".\ufffd..md", ⟨0, 0⟩, Text.decode [1]⟩
    let d := (decideOn Specimen.settings.gates (.utc ⟨0, 0⟩) p).override .demote
    let f := filing Specimen.settings (.utc ⟨0, 0⟩)
    dotted.WellFormed ∧ w.exec (Inbox.scan inbox) = (.ok [p], w) ∧
      d.fileName = ".\ufffd..md" ∧ d.fileStem ++ ".md" = ".\ufffd..md" ∧
      (f.incidentPath d).DirectlyIn f.dirs.incidents
        (Text.encodeString ("INC-" ++ f.now.stamp ++ "-" ++ ".\ufffd..md")) ∧
      (f.destination d).DirectlyIn f.dirs.demoted name := by
  intro w inbox name p d f
  have hw : dotted.WellFormed := .of_entries (by decide) (by decide)
  have hscan : w.exec (Inbox.scan inbox) = (.ok [p], w) := rfl
  obtain ⟨n, hpath, hname, hstem, -, hincident, hdestination⟩ := names_stay_in_directories hw hscan
    List.mem_cons_self Specimen.settings.gates (.utc ⟨0, 0⟩) .demote f
  obtain rfl : name = n := Option.some.inj hpath.baseName?
  have hshown : d.fileName = ".\ufffd..md" := hname.trans rfl
  rw [hshown] at hincident
  exact ⟨hw, hscan, hshown, hstem.trans hshown, hincident, hdestination⟩

end Run

end ProposalReview
