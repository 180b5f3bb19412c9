import Mathlib
import ProposalReview.Proofs.Delivery
/-!
What is known of a run up to its first decision.

A survey adds to the tree only, and if it succeeds it ends in the world that setting up left, with the
proposals of the inbox in the order of their names.
-/

namespace ProposalReview

namespace Run

variable {α : Type} {s : Settings} {now : RunClock} {w w' : World} {files : List ProposalFile}

theorem exec_storing (w : World) (x : ExceptT StoreError (StateM World) α) :
    w.exec (storing x) = ((w.exec x).1.mapError RunError.store, (w.exec x).2) := rfl

theorem ok_of_storing {x : ExceptT StoreError (StateM World) α} {a : α}
    (h : w.exec (storing x) = (.ok a, w')) : w.exec x = (.ok a, w') := by
  rw [exec_storing] at h
  rcases hx : w.exec x with ⟨e | b, w₁⟩ <;> rw [hx] at h
  · cases h
  · cases h
    rfl

/-- A survey changes no more than setting up does, however it ends. -/
theorem survey_keeps_of {T : Tree → Tree → Prop} [IsPreorder Tree T]
    (hset : Keeps T (setUp s now : ExceptT StoreError (StateM World) Unit).run) :
    Keeps T (survey s now : ExceptT RunError (StateM World) (List ProposalFile)).run := by
  have hscan : Keeps T
      (Inbox.scan s.dirs.inbox : ExceptT StoreError (StateM World) (List ProposalFile)).run :=
    (Inbox.scan_keeps s.dirs.inbox).of_eq
  have hstored : Keeps T (storing (setUp s now) : ExceptT RunError (StateM World) Unit).run :=
    fun w => hset w
  rw [survey]
  cases s.check with
  | error e => exact Keeps.pure _
  | ok _ => exact Keeps.exceptBind hstored fun _ w => hscan w

/-- A survey adds to the tree only, however it ends. -/
theorem survey_keeps (s : Settings) (now : RunClock) :
    Keeps Tree.Extends (survey s now : ExceptT RunError (StateM World) (List ProposalFile)).run :=
  survey_keeps_of (setUp_keeps s now)

/-- A survey that succeeds has set up, and then scanned the inbox. -/
theorem survey_parts (h : w.exec (survey s now) = (.ok files, w')) :
    ∃ w₁, w.exec (setUp s now) = (.ok (), w₁) ∧
      w₁.exec (Inbox.scan s.dirs.inbox) = (.ok files, w') := by
  rw [survey] at h
  cases hc : s.check with
  | error e =>
    rw [hc] at h
    cases h
  | ok _ =>
    rw [hc] at h
    obtain ⟨_, w₁, hset, hscan⟩ := World.exec_ok_of_bind h
    exact ⟨w₁, ok_of_storing hset, ok_of_storing hscan⟩

/-- What a survey that succeeds gives. -/
theorem survey_ok (hw : w.tree.WellFormed) (h : w.exec (survey s now) = (.ok files, w')) :
    w.exec (setUp s now) = (.ok (), w') ∧ (∃ t, w.tree.Extends t ∧ w' = { w with tree := t }) ∧
      ∃ ns, Inbox.Scanned w'.tree s.dirs.inbox ns files := by
  obtain ⟨w₁, hset, hscan⟩ := survey_parts h
  obtain ⟨t, ht, rfl⟩ := (setUp_keeps s now).exec hset
  obtain ⟨rfl, hns⟩ := Inbox.scan_ok (ht.wellFormed hw) hscan
  exact ⟨hset, (survey_keeps s now).exec h, hns⟩

end Run

/-! ### A small world

Two proposals in the inbox, which a survey finds in the order of their names. -/

namespace Specimen

/-- The name of the proposal, `a.md`. -/
def name : Name := [0x61, 0x2e, 0x6d, 0x64]

/-- The name of another proposal, `b.md`. -/
def otherName : Name := [0x62, 0x2e, 0x6d, 0x64]

/-- The settings of a real run. -/
def settings : Settings where
  dirs := dirs
  gates := { nameRule := ⟨"", .empty⟩ }
  mode := .real
  workspace := "w"
  policyGate := some ⟨"g", ⟨1, 0⟩⟩
  seedSamples := false

/-- The tree with the proposal, and with some more entries. -/
def tree (more : List (Location × Entry)) : Tree :=
  ⟨([[0x69]], .directory) :: ([[0x69], name], .file [1] ⟨0, 0⟩) :: more⟩

/-- The proposal as it is read. -/
def proposal : ProposalFile := ⟨dirs.inbox.child name, "a.md", ⟨0, 0⟩, Text.decode [1]⟩

/-- The other proposal as it is read. -/
def otherProposal : ProposalFile := ⟨dirs.inbox.child otherName, "b.md", ⟨0, 0⟩, Text.decode [2]⟩

/-- The tree with both proposals. -/
def twoProposals : Tree := tree [([[0x69], otherName], .file [2] ⟨0, 0⟩)]

theorem twoProposals_wellFormed : twoProposals.WellFormed := .of_entries (by decide) (by decide)

theorem twoProposals_linkFree : twoProposals.LinkFree := .of_entries (by decide)

/-- The tree with both proposals, once a run was set up. -/
def preparedTree : Tree :=
  ⟨([[0x6c]], .directory) :: ([[0x64]], .directory) :: ([[0x70]], .directory) ::
    twoProposals.entries⟩

theorem survey_twoProposals :
    World.exec { tree := twoProposals } (Run.survey settings (.utc ⟨0, 0⟩))
      = (.ok [proposal, otherProposal], { tree := preparedTree }) := rfl

end Specimen

end ProposalReview
