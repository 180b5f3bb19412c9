import Mathlib
import ProposalReview.Proofs.Filing.Troubles
import ProposalReview.Proofs.Survey
/-!
What a flagged decision leaves behind.

The file is moved first and its incident is written afterwards. So a file can have left without its
incident, but only if making the incident directory or writing the incident failed, and then that is
the error that is reported; if none is reported, the incident can be read. This is so in any tree, and
whatever goes wrong with the calls: a file that cannot be renamed, copied or removed has not left.
-/

namespace ProposalReview.Filing

variable {f : Filing} {d : Decision} {u u' : UnreliableWorld}

/-- Filing the incident of a decision with a reason succeeds, and then the incident can be read; or the
incident directory cannot be made; or the incident cannot be written, but the first bytes of it at most. -/
theorem fileIncident_cases (hreasons : d.reasons ≠ []) {r : Except StoreError Unit}
    (h : u.exec (f.fileIncident d) = (r, u')) :
    let text := Text.encodeString (Incident.text d f.now f.mode.isDryRun)
    (r = .ok () ∧ u'.tree.content (f.incidentPath d) = .ok text) ∨
      ∃ t, u.tree.Grows ∅ t ∧
        (((∃ cause, r = .error ⟨.creating, f.dirs.incidents, cause⟩) ∧ u'.tree = t) ∨
          ((∃ cause, r = .error ⟨.writing, f.incidentPath d, cause⟩) ∧
            t.PartWritten (f.incidentPath d) text u.now u'.tree)) := by
  intro text
  rw [fileIncident, if_neg (by simpa using hreasons)] at h
  rcases UnreliableWorld.exec_bind_cases h with ⟨e, hcreate, rfl⟩ | ⟨_, u₁, hcreate, hwrite⟩
  · obtain ⟨⟨t, hgrows, hafter⟩, hok | ⟨cause, herr⟩⟩ := UnreliableWorld.create_cases hcreate
    · cases hok
    · cases herr
      exact Or.inr ⟨t, hgrows, Or.inl ⟨⟨cause, rfl⟩, by rw [hafter]⟩⟩
  · obtain ⟨⟨t, hgrows, hafter⟩, -⟩ := UnreliableWorld.create_cases hcreate
    rcases UnreliableWorld.write_cases hwrite with ⟨rfl, t', hwritten, hafter'⟩ |
      ⟨hcause, t', hafter', hpart⟩
    · rw [hafter] at hwritten
      rw [hafter']
      exact Or.inl ⟨rfl, Tree.content_write hwritten⟩
    · rw [hafter] at hpart
      rw [hafter']
      exact Or.inr ⟨t, hgrows, Or.inr ⟨hcause, hpart⟩⟩

/-- A flagged file is taken to its destination, and then its incident can be read or the error says that
the incident could not be filed; or the error says that the file could not be moved, and it is still where
it was. -/
theorem apply_files_incident (hmode : f.mode = .real) (hreasons : d.reasons ≠ [])
    (hmoves : d.action ≠ .hold) {r : Except StoreError Record} (h : u.exec (f.apply d) = (r, u')) :
    let text := Text.encodeString (Incident.text d f.now false)
    (∃ t, u.tree.Taken d.sourcePath (f.destination d) u.now t ∧
      ((r = .ok (f.record d) ∧ u'.tree.content (f.incidentPath d) = .ok text) ∨
        ∃ t₁, t.Grows ∅ t₁ ∧
          (((∃ cause, r = .error ⟨.creating, f.dirs.incidents, cause⟩) ∧ u'.tree = t₁) ∨
            ((∃ cause, r = .error ⟨.writing, f.incidentPath d, cause⟩) ∧
              t₁.PartWritten (f.incidentPath d) text u.now u'.tree)))) ∨
    ((((∃ cause, r = .error ⟨.moving, d.sourcePath, cause⟩) ∧ u'.tree = u.tree) ∨
        ((∃ cause, r = .error ⟨.copying, d.sourcePath, cause⟩ ∨
            r = .error ⟨.removing, d.sourcePath, cause⟩) ∧
          ∃ bytes, u.tree.PartWritten (f.destination d) bytes u.now u'.tree)) ∧
      (u.tree.isPresent d.sourcePath → u'.tree.isPresent d.sourcePath)) := by
  intro text
  have hdry : f.mode.isDryRun = false := by rw [hmode, RunMode.isDryRun]
  rw [apply, if_pos hmode, move, if_neg hmoves] at h
  rcases UnreliableWorld.exec_bind_cases h with ⟨e, hmove, rfl⟩ | ⟨_, u₁, hmove, hrest⟩
  · right
    rcases UnreliableWorld.moveFile_cases hmove with ⟨hok, -⟩ | ⟨cause, herr, hsame⟩ |
      ⟨action, cause, t, bytes, haction, herr, hafter, hpart⟩
    · cases hok
    · cases herr
      rw [hsame]
      exact ⟨Or.inl ⟨⟨cause, rfl⟩, rfl⟩, id⟩
    · cases herr
      rw [hafter]
      refine ⟨Or.inr ⟨⟨cause, ?_⟩, bytes, hpart⟩, hpart.isPresent⟩
      exact haction.imp (fun h => by rw [h]) fun h => by rw [h]
  · left
    rcases UnreliableWorld.moveFile_cases hmove with ⟨-, t, htaken, hafter⟩ | ⟨_, herr, -⟩ |
      ⟨_, _, _, _, -, herr, -⟩
    · obtain ⟨r₁, hfile, rfl⟩ := UnreliableWorld.exec_bind_pure hrest
      have hcases := fileIncident_cases hreasons hfile
      rw [hdry, hafter] at hcases
      refine ⟨t, htaken, ?_⟩
      rcases hcases with ⟨rfl, hcontent⟩ | ⟨t₁, hgrows, ⟨⟨cause, rfl⟩, hsame⟩ | ⟨⟨cause, rfl⟩, hpart⟩⟩
      · exact Or.inl ⟨rfl, hcontent⟩
      · exact Or.inr ⟨t₁, hgrows, Or.inl ⟨⟨cause, rfl⟩, hsame⟩⟩
      · exact Or.inr ⟨t₁, hgrows, Or.inr ⟨⟨cause, rfl⟩, hpart⟩⟩
    · cases herr
    · cases herr

/-- A decision that takes a proposal to the applied directory although there is a reason not to. -/
def flagged : Decision where
  file := (Specimen.dirs.inbox.child Specimen.name).display
  source := Specimen.dirs.inbox.child Specimen.name
  action := .promote
  reasons := ["missing_eval"]
  warnings := []
  kpi := {}
  ageHours := 0.0

/-- A flagged proposal that must go to another device is copied and removed, and its incident can be
read. -/
theorem apply_files_incident_copied :
    let f := Run.filing Specimen.settings (.utc ⟨0, 0⟩)
    let u : UnreliableWorld :=
      { tree := Specimen.tree [([[0x70]], .directory)]
        troubles := [some (.refused .crossesDevices)] }
    let after := (u.exec (f.apply flagged)).2.tree
    f.mode = .real ∧ flagged.reasons ≠ [] ∧ flagged.action ≠ .hold ∧
      after.isPresent flagged.sourcePath = false ∧
      after.content (f.incidentPath flagged)
        = .ok (Text.encodeString (Incident.text flagged f.now false)) := by
  intro f u after
  have hmode : f.mode = .real := rfl
  have hreasons : flagged.reasons ≠ [] := by decide
  have hmoves : flagged.action ≠ .hold := by decide
  refine ⟨hmode, hreasons, hmoves, by decide +kernel, ?_⟩
  have hok : (u.exec (f.apply flagged)).1.isOk := by decide +kernel
  rcases apply_files_incident hmode hreasons hmoves (Prod.mk.eta (p := u.exec (f.apply flagged))).symm
    with ⟨_, -, ⟨-, hcontent⟩ | ⟨_, -, ⟨⟨_, herr⟩, -⟩ | ⟨⟨_, herr⟩, -⟩⟩⟩ |
      ⟨⟨⟨_, herr⟩, -⟩ | ⟨⟨_, herr | herr⟩, -⟩, -⟩
  · exact hcontent
  all_goals
    rw [herr] at hok
    cases hok

/-- A flagged file can have left without its incident: here a file stands where incidents should go. -/
theorem incident_missing_after_move :
    ¬ ∀ (f : Filing) (d : Decision) (w : World), f.mode = .real → d.reasons ≠ [] →
      d.action ≠ .hold → w.tree.isPresent d.sourcePath →
      (w.exec (f.apply d)).2.tree.isPresent d.sourcePath = false →
      (w.exec (f.apply d)).2.tree.content (f.incidentPath d)
        = .ok (Text.encodeString (Incident.text d f.now false)) := by
  intro h
  let f := Run.filing Specimen.settings (.utc ⟨0, 0⟩)
  let w : World := { tree := Specimen.tree [([[0x70]], .directory), ([[0x6e]], .file [] ⟨0, 0⟩)] }
  have hcontent := h f flagged w rfl (by decide) (by decide) (by decide +kernel) (by decide +kernel)
  have hnone : ((w.exec (f.apply flagged)).2.tree.content (f.incidentPath flagged)).isOk = false := by
    decide +kernel
  rw [hcontent] at hnone
  cases hnone

end ProposalReview.Filing
