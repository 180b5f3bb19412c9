import Mathlib
import ProposalReview.Proofs.Consultation
/-!
How a run fails, and when it refuses its settings.

There are two points at which settings can be refused. They are checked first, and what is refused there
leaves the world as it was. Whether a real run was handed a gate is looked at only when the inbox was
scanned, and by then directories have been made and samples written.
-/

namespace ProposalReview.Run

variable {s : Settings} {gate : Option PolicyGate} {now : RunClock} {w w' : World}

/-! ### The parts of a run -/

/-- A check fails exactly for a real run without the settings of a gate. -/
theorem check_eq_error_iff {e : SettingsError} :
    s.check = .error e ↔ e = .gateRequired ∧ s.mode = .real ∧ s.policyGate = none := by
  rw [Settings.check, ← Option.isNone_iff_eq_none]
  split_ifs with hmissing
  · simp [hmissing, eq_comm]
  · exact ⟨fun h => (by cases h), fun h => absurd h.2 hmissing⟩

theorem storing_error {α : Type} {x : ExceptT StoreError (StateM World) α} {e : RunError}
    (h : w.exec (storing x) = (.error e, w')) : ∃ cause, e = .store cause := by
  rw [exec_storing] at h
  rcases hx : w.exec x with ⟨cause | a, w₁⟩ <;> rw [hx] at h
  · cases h
    exact ⟨cause, rfl⟩
  · cases h

/-- A survey fails at the check, before anything has happened, or as something cannot be stored. -/
theorem survey_error {e : RunError} (h : w.exec (survey s now) = (.error e, w')) :
    (∃ refused, s.check = .error refused ∧ e = .settings refused ∧ w' = w) ∨
      ∃ cause, e = .store cause := by
  rw [survey] at h
  cases hc : s.check with
  | error refused =>
    rw [hc] at h
    cases h
    exact Or.inl ⟨refused, rfl, rfl, rfl⟩
  | ok _ =>
    rw [hc] at h
    right
    rcases World.exec_bind_cases h with ⟨e', hset, herr⟩ | ⟨_, w₁, -, hscan⟩
    · cases herr
      exact storing_error hset
    · exact storing_error hscan

theorem survey_checked {files : List ProposalFile} (h : w.exec (survey s now) = (.ok files, w')) :
    s.check = .ok () := by
  rw [survey] at h
  cases hc : s.check with
  | error e =>
    rw [hc] at h
    cases h
  | ok _ => rfl

/-- Asking the gate fails only as the gate does. -/
theorem consult_error {g : PolicyGate} {workspace : String} {ds : List Decision} {e : RunError}
    (h : w.exec (consult g.review workspace ds) = (.error e, w')) :
    ∃ file action cause, e = .gate file action cause := by
  induction ds generalizing w with
  | nil => cases h
  | cons d ds ih =>
    rcases World.exec_bind_cases h with ⟨e', hasked, herr⟩ | ⟨_, w₁, -, hrest⟩
    · cases herr
      rw [consultOn_exec] at hasked
      cases ha : g.answer workspace w.requests d with
      | ok a =>
        rw [ha] at hasked
        cases hasked
      | error cause =>
        rw [ha] at hasked
        cases hasked
        exact ⟨_, _, cause, rfl⟩
    · rcases World.exec_bind_cases hrest with ⟨e', hasked, herr⟩ | ⟨_, w₂, -, hlast⟩
      · cases herr
        exact ih hasked
      · cases hlast

/-! ### Failures -/

/-- How a run can fail, and the world that it leaves then. -/
inductive Fails (s : Settings) (gate : Option PolicyGate) (now : RunClock) (w : World) :
    RunError → World → Prop
  /-- The settings were refused at the check. -/
  | refused {e} (unfit : s.check = .error e) : Fails s gate now w (.settings e) w
  /-- The inbox was scanned, but there is no gate to ask. -/
  | ungated {files w'} (real : s.mode = .real) (absent : gate = none)
      (surveyed : w.exec (survey s now) = (.ok files, w')) :
      Fails s gate now w (.settings .gateRequired) w'
  /-- The inbox was scanned, and the gate blocked a proposal. -/
  | blocked {files w₁ g file action cause w'} (real : s.mode = .real) (present : gate = some g)
      (surveyed : w.exec (survey s now) = (.ok files, w₁))
      (asked : w₁.exec (consult g.review s.workspace (files.map (decideOn s.gates now)))
        = (.error (.gate file action cause), w')) :
      Fails s gate now w (.gate file action cause) w'
  /-- Something could not be stored. -/
  | unstored {cause w'} : Fails s gate now w (.store cause) w'

/-- Every failure of a run is one of these. -/
theorem run_fails {e : RunError}
    (h : w.exec (run s (gate.map PolicyGate.review) now) = (.error e, w')) :
    Fails s gate now w e w' := by
  rcases hsurvey : w.exec (survey s now) with ⟨e' | files, w₁⟩
  · cases (run_of_survey_error gate hsurvey).symm.trans h
    rcases survey_error hsurvey with ⟨refused, hc, rfl, rfl⟩ | ⟨cause, rfl⟩
    · exact .refused hc
    · exact .unstored
  rw [run_of_survey gate hsurvey] at h
  rcases World.exec_bind_cases h with ⟨e', hreview, herr⟩ | ⟨ds, w₂, -, hcarry⟩
  · cases herr
    cases hmode : s.mode with
    | dryRun =>
      rw [reviewed.eq_def, hmode] at hreview
      cases hreview
    | real =>
      cases gate with
      | none =>
        rw [reviewed.eq_def, hmode] at hreview
        cases hreview
        exact .ungated hmode rfl hsurvey
      | some g =>
        rw [Option.map_some, reviewed_real hmode] at hreview
        obtain ⟨file, action, cause, rfl⟩ := consult_error hreview
        exact .blocked hmode rfl hsurvey hreview
  · obtain ⟨cause, rfl⟩ := storing_error hcarry
    exact .unstored

/-- Settings are refused in two cases, and both are about the gate of a real run. Without the settings
of a gate nothing happens at all. With them, but without a gate to ask, the run has surveyed the inbox,
and it leaves the world that the survey left. -/
theorem run_refuses_settings_iff {e : SettingsError} :
    w.exec (run s (gate.map PolicyGate.review) now) = (.error (.settings e), w') ↔
      e = .gateRequired ∧ s.mode = .real ∧
        (s.policyGate = none ∧ w' = w ∨
          s.policyGate ≠ none ∧ gate = none ∧ ∃ files, w.exec (survey s now) = (.ok files, w')) := by
  constructor
  · intro h
    cases run_fails h with
    | refused unfit =>
      obtain ⟨he, hreal, hnone⟩ := check_eq_error_iff.mp unfit
      exact ⟨he, hreal, Or.inl ⟨hnone, rfl⟩⟩
    | ungated real absent surveyed =>
      refine ⟨rfl, real, Or.inr ⟨fun hnone => ?_, absent, _, surveyed⟩⟩
      have hc := (check_eq_error_iff (e := .gateRequired)).mpr ⟨rfl, real, hnone⟩
      cases hc.symm.trans (survey_checked surveyed)
  · rintro ⟨rfl, hreal, ⟨hnone, rfl⟩ | ⟨-, rfl, files, hsurvey⟩⟩
    · have hc : s.check = .error .gateRequired := check_eq_error_iff.mpr ⟨rfl, hreal, hnone⟩
      rw [run, survey, hc]
      rfl
    · rw [run_of_survey none hsurvey, Option.map_none, reviewed.eq_def, hreal]
      rfl

/-- Settings can be refused too late: here the run has made three directories by then. -/
theorem refused_settings_leave_directories :
    ¬ ∀ (s : Settings) (gate : Option PolicyGate) (now : RunClock) (w w' : World) (e : SettingsError),
      w.exec (run s (gate.map PolicyGate.review) now) = (.error (.settings e), w') →
      w'.tree = w.tree := by
  intro h
  have hrun : World.exec { tree := Specimen.twoProposals }
      (run Specimen.settings ((none : Option PolicyGate).map PolicyGate.review) (.utc ⟨0, 0⟩))
      = (.error (.settings .gateRequired), { tree := Specimen.preparedTree }) := by
    rw [run_of_survey none Specimen.survey_twoProposals]
    rfl
  have hsame : Specimen.preparedTree = Specimen.twoProposals := h _ none _ _ _ _ hrun
  have hbefore : Specimen.preparedTree.entry? [[0x6c]] = some .directory := rfl
  rw [hsame] at hbefore
  cases hbefore

end ProposalReview.Run
