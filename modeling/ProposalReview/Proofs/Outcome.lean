import Mathlib
import ProposalReview.Proofs.Reach
/-!
What a run that succeeds gives.

Such a run has passed every part: the survey, the review of the local decisions, and carrying out. Its
summary lists the records of the reviewed decisions in order, and a record depends on its decision
and on where and when the run takes place, but neither on the mode nor on the tree.
-/

namespace ProposalReview

variable {f : Filing} {d : Decision} {ds : List Decision} {s : Settings} {now : RunClock}
  {w w' : World} {o : Outcome}

/-- A gate that can do anything at all when it is asked. -/
abbrev AnyGate := GateRequest → StateM World (Except GateError JsonObject)

/-! ### Carrying out -/

theorem Filing.apply_ok {r : Record} (h : w.exec (f.apply d) = (.ok r, w')) : r = f.record d := by
  rw [apply] at h
  split at h
  · obtain ⟨_, w₁, -, h⟩ := World.exec_ok_of_bind h
    obtain ⟨_, w₂, -, h⟩ := World.exec_ok_of_bind h
    cases h
    rfl
  · cases h
    rfl

theorem Filing.applyAll_ok {rs : List Record} (h : w.exec (f.applyAll ds) = (.ok rs, w')) :
    rs = ds.map f.record := by
  induction ds generalizing w rs w' with
  | nil =>
    cases h
    rfl
  | cons d ds ih =>
    obtain ⟨r, w₁, hr, h⟩ := World.exec_ok_of_bind h
    obtain ⟨rs', w₂, hrs, h⟩ := World.exec_ok_of_bind h
    cases h
    simp [apply_ok hr, ih hrs]

/-- A dry run only says what it would do. -/
theorem Filing.applyAll_dryRun (hdry : f.mode = .dryRun) (ds : List Decision) (w : World) :
    w.exec (f.applyAll ds) = (.ok (ds.map f.record), w) := by
  induction ds with
  | nil => rfl
  | cons d ds ih =>
    have happly : f.apply d = (pure (f.record d) : ExceptT StoreError (StateM World) Record) := by
      rw [apply, if_neg (by simp [hdry])]
    rw [applyAll, happly, World.exec_bind, World.exec_pure]
    simp only
    rw [World.exec_bind, ih]
    rfl

namespace Run

/-- The summary of decisions that were carried out. -/
def summaryOf (s : Settings) (now : RunClock) (ds : List Decision) : Summary :=
  Summary.ofRecords now.timeUtc s.mode.isDryRun s.gates.minMarginRate
    (ds.map (filing s now).record)

/-- Carrying out that succeeds has carried out every decision, and then written the summary. -/
theorem carryOut_ok (h : w.exec (carryOut s now ds) = (.ok o, w')) :
    o.summary = summaryOf s now ds ∧ ∃ w₁,
      w.exec ((filing s now).applyAll ds) = (.ok (ds.map (filing s now).record), w₁) ∧
      w₁.exec ((filing s now).writeSummary o.summary) = (.ok o.summaryPath, w') := by
  obtain ⟨rs, w₁, happly, h⟩ := World.exec_ok_of_bind h
  obtain rfl := Filing.applyAll_ok happly
  obtain ⟨path, w₂, hwrite, h⟩ := World.exec_ok_of_bind h
  rw [World.exec_pure, Prod.mk.injEq] at h
  obtain ⟨hok, rfl⟩ := h
  obtain rfl := Except.ok.inj hok
  exact ⟨rfl, w₁, happly, hwrite⟩

/-- A run that succeeds has passed its three parts. -/
theorem run_ok {gate : Option AnyGate} (h : w.exec (run s gate now) = (.ok o, w')) :
    ∃ files w₁ ds w₂, w.exec (survey s now) = (.ok files, w₁) ∧
      w₁.exec (reviewed s gate (files.map (decideOn s.gates now))) = (.ok ds, w₂) ∧
      w₂.exec (carryOut s now ds) = (.ok o, w') := by
  obtain ⟨files, w₁, hsurvey, h⟩ := World.exec_ok_of_bind h
  obtain ⟨ds, w₂, hreview, h⟩ := World.exec_ok_of_bind h
  exact ⟨files, w₁, ds, w₂, hsurvey, hreview, ok_of_storing h⟩

theorem reviewed_dryRun (hdry : s.mode = .dryRun) (gate : Option AnyGate) (ds : List Decision) :
    reviewed s gate ds = pure ds := by
  rw [reviewed.eq_def, hdry]

/-- Reviewing leaves the tree alone. -/
theorem reviewed_tree {gate : Option PolicyGate} {r : Except RunError (List Decision)}
    (h : w.exec (reviewed s (gate.map PolicyGate.review) ds) = (r, w')) : w'.tree = w.tree := by
  cases hmode : s.mode with
  | dryRun =>
    rw [reviewed_dryRun hmode] at h
    cases h
    rfl
  | real =>
    cases gate with
    | none =>
      rw [Option.map_none, reviewed.eq_def, hmode] at h
      cases h
      rfl
    | some g =>
      rw [Option.map_some, reviewed_real hmode] at h
      exact (consult_cases h).1

/-- The decisions in the summary are those that were reviewed. -/
theorem decisions_of_carryOut (h : w.exec (carryOut s now ds) = (.ok o, w')) :
    o.summary.decisions = ds.map (filing s now).record := by
  rw [(carryOut_ok h).1]
  rfl

end Run

end ProposalReview
