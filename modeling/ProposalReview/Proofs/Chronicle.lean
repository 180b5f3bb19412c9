import Mathlib
import ProposalReview.Proofs.Footprint
/-!
What becomes of incidents and summaries over any number of runs.

Runs of both modes, proposals that are dropped into the inbox and time that passes can follow each other
in any order. What a run writes is named after the second of local time that it started in, and nothing
looks whether the name is taken. So an artifact stands to the end unless a later run with the same stamp
wrote another one of its name; runs of one mode that bear different stamps leave one summary each.
-/

namespace ProposalReview

variable {dirs : Directories} {w w₀ : World} {l : Location} {e : Entry}

/-- A run that took place: what it was given, and what came of it. -/
structure Invocation where
  settings : Settings
  gate : Option PolicyGate
  now : RunClock
  before : World
  result : Except RunError Outcome
  after : World
  ran : before.exec (Run.run settings (gate.map PolicyGate.review) now) = (result, after)

namespace Invocation

/-- The run that takes place in a world. -/
def of (settings : Settings) (gate : Option PolicyGate) (now : RunClock) (before : World) :
    Invocation where
  settings := settings
  gate := gate
  now := now
  before := before
  result := (before.exec (Run.run settings (gate.map PolicyGate.review) now)).1
  after := (before.exec (Run.run settings (gate.map PolicyGate.review) now)).2
  ran := rfl

/-- Where the incident of the run about a proposal belongs, by how its name is shown. -/
def incidentPlace (x : Invocation) (shown : String) : Location :=
  (Run.filing x.settings x.now).incidentPlace shown

/-- Whether the run was a real one and scanned a proposal whose name is shown in some way, with a reason
against it. -/
def Flags (x : Invocation) (shown : String) : Prop := Run.Flags x.settings x.now x.before shown

/-- Where the run may have written artifacts. -/
def writes (x : Invocation) : Set Location := Run.Writes x.settings x.now x.before x.result

/-- The mode and the stamp of the run. -/
def moment (x : Invocation) : RunMode × String := (x.settings.mode, x.now.stamp)

end Invocation

/-- Runs on the same directories, in order, from one world to another. Between them, proposals may have
been dropped into the inbox, and time may have passed. -/
inductive Chronicle (dirs : Directories) (w₀ : World) : List Invocation → World → Prop
  | start : Chronicle dirs w₀ [] w₀
  | run {xs} {x : Invocation} (past : Chronicle dirs w₀ xs x.before) (same : x.settings.dirs = dirs) :
      Chronicle dirs w₀ (xs ++ [x]) x.after
  | drop {xs w n} (past : Chronicle dirs w₀ xs w) (bytes : Bytes) (time : Instant)
      (valid : Name.Valid n) (inbox : w.tree.entry? dirs.inbox.place = some .directory)
      (free : w.tree.entry? (dirs.inbox.place ++ [n]) ≠ some .directory) :
      Chronicle dirs w₀ xs { w with tree := w.tree.put (dirs.inbox.place ++ [n]) (.file bytes time) }
  | wait {xs w} (past : Chronicle dirs w₀ xs w) (time : Instant) :
      Chronicle dirs w₀ xs { w with now := time }

namespace Chronicle

variable {xs as bs : List Invocation} {x : Invocation}

theorem same_dirs (h : Chronicle dirs w₀ xs w) : ∀ x ∈ xs, x.settings.dirs = dirs := by
  induction h with
  | start => simp
  | run _ same ih =>
    intro y hy
    rcases List.mem_append.mp hy with hy | hy
    · exact ih y hy
    · rw [List.mem_singleton.mp hy, same]
  | drop _ _ _ _ _ _ ih => exact ih
  | wait _ _ ih => exact ih

/-- A chronicle can be parted at each of its runs. -/
theorem split (h : Chronicle dirs w₀ xs w) (hxs : xs = as ++ x :: bs) :
    Chronicle dirs w₀ as x.before ∧ Chronicle dirs x.after bs w := by
  induction h generalizing bs with
  | start => simp at hxs
  | @run ys y past same ih =>
    -- the newest run is the one to part at, or the last one after it
    rcases List.eq_nil_or_concat bs with rfl | ⟨bs, z, rfl⟩
    · obtain ⟨rfl, hyx⟩ := List.append_inj' hxs rfl
      obtain rfl := List.singleton_injective hyx
      exact ⟨past, .start⟩
    · rw [List.concat_eq_append, ← List.cons_append, ← List.append_assoc] at hxs
      obtain ⟨rfl, hyz⟩ := List.append_inj' hxs rfl
      obtain rfl := List.singleton_injective hyz
      rw [List.concat_eq_append]
      obtain ⟨hbefore, hafter⟩ := ih rfl
      exact ⟨hbefore, .run hafter same⟩
  | drop _ bytes time valid inbox free ih =>
    obtain ⟨hbefore, hafter⟩ := ih hxs
    exact ⟨hbefore, .drop hafter bytes time valid inbox free⟩
  | wait _ time ih =>
    obtain ⟨hbefore, hafter⟩ := ih hxs
    exact ⟨hbefore, .wait hafter time⟩

/-- Over any number of runs a tree stays well-formed and without links, and no artifact changes but where
a run may have written one. -/
theorem artifacts (hdirs : dirs.Distinct) (h : Chronicle dirs w₀ xs w) (hw : w₀.tree.WellFormed)
    (hl : w₀.tree.LinkFree) : w.tree.WellFormed ∧ w.tree.LinkFree ∧
      w₀.tree.Grows (dirs.Artifactsᶜ ∪ {l | ∃ x ∈ xs, l ∈ x.writes}) w.tree := by
  induction h with
  | start => exact ⟨hw, hl, Tree.Grows.refl _ _⟩
  | @run xs x _ same ih =>
    subst same
    obtain ⟨hwx, hlx, hpast⟩ := ih
    obtain ⟨hw', hl', hgrows⟩ := Run.run_artifacts hdirs hwx hlx x.ran
    refine ⟨hw', hl', (hpast.mono ?_).trans (hgrows.mono ?_)⟩
    · refine Set.union_subset_union_right _ fun l hl => ?_
      obtain ⟨y, hy, hl⟩ := hl
      exact ⟨y, List.mem_append_left _ hy, hl⟩
    · exact Set.union_subset_union_right _ fun l hl => ⟨x, by simp, hl⟩
  | @drop xs w n _ bytes time valid inbox free ih =>
    obtain ⟨hw, hl, hpast⟩ := ih
    refine ⟨hw.put inbox valid free, hl.put (by simp) (by simp), hpast.trans fun l hl => ?_⟩
    have hne : l ≠ dirs.inbox.place ++ [n] := by
      rintro rfl
      exact hl (Or.inl (Directories.not_mem_artifacts n hdirs.inbox.1 hdirs.inbox.2))
    rw [Tree.entry?_put (by simp), if_neg hne]
    exact Or.inl rfl
  | wait _ _ ih => exact ih

/-- What stands in a directory of artifacts after a run stands at the end, unless a later run may have
written there. -/
theorem stands (hdirs : dirs.Distinct) (h : Chronicle dirs w₀ xs w) (hw : w₀.tree.WellFormed)
    (hl : w₀.tree.LinkFree) (hxs : xs = as ++ x :: bs) (hmem : l ∈ dirs.Artifacts)
    (he : x.after.tree.entry? l = some e) :
    w.tree.entry? l = some e ∨ ∃ y ∈ bs, l ∈ y.writes := by
  have hsame := h.same_dirs x (by simp [hxs])
  obtain ⟨hpast, hrest⟩ := h.split hxs
  obtain ⟨hwx, hlx, -⟩ := hpast.artifacts hdirs hw hl
  obtain ⟨hw', hl', -⟩ := Run.run_artifacts (hsame ▸ hdirs) hwx hlx x.ran
  -- the later runs are a chronicle of their own, from the world that this run left
  obtain ⟨-, -, hgrows⟩ := hrest.artifacts hdirs hw' hl'
  by_cases hwritten : ∃ y ∈ bs, l ∈ y.writes
  · exact Or.inr hwritten
  · exact Or.inl (hgrows.keeps (fun hor => hor.elim (fun hnot => hnot hmem) hwritten) he)

end Chronicle

/-- What is seen of the decisions in a summary: how the proposals' names are shown, and whether there is a
reason against them. -/
def Summary.flagged (s : Summary) : List (String × Bool) :=
  s.decisions.map fun r => (r.decision.fileName, decide (r.decision.reasons ≠ []))

/-- How the text of a summary begins: with the time of the run. -/
def Summary.opening (s : Summary) : List Char := (s.toJson.writeIndented 0).take 50

end ProposalReview
