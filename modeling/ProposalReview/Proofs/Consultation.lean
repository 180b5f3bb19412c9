import Mathlib
import ProposalReview.Proofs.Survey
/-!
A real run asks first and acts afterwards.

The gate may answer anything, and what it answers may depend on everything it was asked before. It is
asked about the proposals in the order of their names, each request says what the local decision says,
and the first failure ends the run before any file is touched. `run_asks_before_it_acts` says exactly
what was asked and what is left behind.
-/

namespace ProposalReview

/-! ### What a gate answers -/

namespace PolicyGate

/-- The action that a gate gives for a decision after some requests, or why it gives none. -/
def answer (g : PolicyGate) (workspace : String) (before : List GateRequest) (d : Decision) :
    Except GateError Action :=
  (g before (GateRequest.ofDecision workspace d)).bind (verdict d.action)

/-- Whether a gate gives an action for every decision of a list, asked in order after some requests. -/
def Passes (g : PolicyGate) (workspace : String) : List GateRequest → List Decision → Prop
  | _, [] => True
  | before, d :: ds => (∃ a, g.answer workspace before d = .ok a) ∧
      g.Passes workspace (before ++ [GateRequest.ofDecision workspace d]) ds

/-- The decisions with the actions that a gate gives, asked in order after some requests. -/
inductive Settles (g : PolicyGate) (workspace : String) :
    List GateRequest → List Decision → List Decision → Prop
  | nil {before} : Settles g workspace before [] []
  | cons {before d ds a final} (answered : g.answer workspace before d = .ok a)
      (rest : Settles g workspace (before ++ [GateRequest.ofDecision workspace d]) ds final) :
      Settles g workspace before (d :: ds) (d.override a :: final)

variable {g : PolicyGate} {workspace : String} {before : List GateRequest} {d : Decision}
  {ds final : List Decision}

theorem Passes.settles (h : g.Passes workspace before ds) :
    ∃ final, g.Settles workspace before ds final := by
  induction ds generalizing before with
  | nil => exact ⟨[], .nil⟩
  | cons d ds ih =>
    obtain ⟨⟨a, ha⟩, hrest⟩ := h
    obtain ⟨final, hfinal⟩ := ih hrest
    exact ⟨_, .cons ha hfinal⟩

end PolicyGate

/-! ### Asking -/

namespace Run

variable {g : PolicyGate} {workspace : String} {w : World} {d : Decision} {ds final : List Decision}

theorem consultOn_exec (g : PolicyGate) (workspace : String) (w : World) (d : Decision) :
    w.exec (consultOn g.review workspace d)
      = (match g.answer workspace w.requests d with
        | .ok a => .ok (d.override a)
        | .error e => .error (.gate d.fileName d.action e),
        { w with requests := w.requests ++ [GateRequest.ofDecision workspace d] }) := by
  have hreview : (g.review (GateRequest.ofDecision workspace d)).run w
      = (g w.requests (GateRequest.ofDecision workspace d),
        { w with requests := w.requests ++ [GateRequest.ofDecision workspace d] }) := rfl
  have hanswer : (g w.requests (GateRequest.ofDecision workspace d)).bind (verdict d.action)
      = g.answer workspace w.requests d := rfl
  rw [consultOn, World.exec_bind, World.exec_lift, hreview]
  simp only [hanswer]
  cases g.answer workspace w.requests d with
  | ok a => rfl
  | error e => rfl

/-- If the gate settles every decision, it was asked about each of them. -/
theorem consult_settled (h : g.Settles workspace w.requests ds final) :
    w.exec (consult g.review workspace ds)
      = (.ok final, { w with requests := w.requests ++ ds.map (GateRequest.ofDecision workspace) }) := by
  induction ds generalizing w final with
  | nil =>
    cases h
    simp [consult]
  | cons d ds ih =>
    cases h with
    | cons ha hrest =>
      rw [consult, World.exec_bind, consultOn_exec, ha]
      simp only
      rw [World.exec_bind, ih hrest]
      simp

/-- If the gate passes some decisions and then fails, it was asked no further. -/
theorem consult_failed (bs : List Decision) {as : List Decision} {e : GateError}
    (hpass : g.Passes workspace w.requests as)
    (he : g.answer workspace (w.requests ++ as.map (GateRequest.ofDecision workspace)) d = .error e) :
    w.exec (consult g.review workspace (as ++ d :: bs)) = (.error (.gate d.fileName d.action e),
      { w with requests := w.requests ++ (as ++ [d]).map (GateRequest.ofDecision workspace) }) := by
  induction as generalizing w with
  | nil =>
    rw [List.map_nil, List.append_nil] at he
    rw [List.nil_append, consult, World.exec_bind, consultOn_exec, he]
    rfl
  | cons a as ih =>
    obtain ⟨⟨_, ha⟩, hrest⟩ := hpass
    rw [List.map_cons, List.append_cons] at he
    rw [List.cons_append, consult, World.exec_bind, consultOn_exec, ha]
    simp only
    rw [World.exec_bind, ih hrest he]
    simp

/-- Whatever the gate answers, asking it leaves the tree alone, and decisions that come of it are
settled by it. -/
theorem consult_cases {w' : World} {r : Except RunError (List Decision)}
    (h : w.exec (consult g.review workspace ds) = (r, w')) :
    w'.tree = w.tree ∧ ∀ final, r = .ok final → g.Settles workspace w.requests ds final := by
  induction ds generalizing w w' r with
  | nil =>
    cases h
    refine ⟨rfl, fun final hfinal => ?_⟩
    cases hfinal
    exact .nil
  | cons d ds ih =>
    cases ha : g.answer workspace w.requests d with
    | error e =>
      rw [consult, World.exec_bind, consultOn_exec, ha] at h
      cases h
      exact ⟨rfl, fun _ hfinal => by cases hfinal⟩
    | ok a =>
      rw [consult, World.exec_bind, consultOn_exec, ha] at h
      simp only at h
      rcases World.exec_bind_cases h with ⟨e, hrest, rfl⟩ | ⟨final, w₁, hrest, hlast⟩
      · exact ⟨(ih hrest).1, fun _ hfinal => by cases hfinal⟩
      · obtain ⟨htree, hsettles⟩ := ih hrest
        cases hlast
        refine ⟨htree, fun _ hfinal => ?_⟩
        cases hfinal
        exact .cons ha (hsettles final rfl)

/-! ### Runs -/

variable {s : Settings} {now : RunClock} {w₁ w' : World} {files : List ProposalFile}
  {r : Except RunError Outcome}

theorem run_of_survey_error (gate : Option PolicyGate) {e : RunError}
    (hsurvey : w.exec (survey s now) = (.error e, w₁)) :
    w.exec (run s (gate.map PolicyGate.review) now) = (.error e, w₁) := by
  rw [run, World.exec_bind, hsurvey]

theorem run_of_survey (gate : Option PolicyGate)
    (hsurvey : w.exec (survey s now) = (.ok files, w₁)) :
    w.exec (run s (gate.map PolicyGate.review) now) = w₁.exec (do
      let ds ← reviewed s (gate.map PolicyGate.review) (files.map (decideOn s.gates now))
      storing (carryOut s now ds)) := by
  rw [run, World.exec_bind, hsurvey]

/-- What the gate is asked about a proposal. -/
def requestFor (s : Settings) (now : RunClock) (f : ProposalFile) : GateRequest :=
  GateRequest.ofDecision s.workspace (decideOn s.gates now f)

theorem reviewed_real (hreal : s.mode = .real) (g : PolicyGate) (ds : List Decision) :
    reviewed s (some g.review) ds = consult g.review s.workspace ds := by
  rw [reviewed.eq_def, hreal]

theorem map_requestFor (s : Settings) (now : RunClock) (fs : List ProposalFile) :
    (fs.map (decideOn s.gates now)).map (GateRequest.ofDecision s.workspace)
      = fs.map (requestFor s now) := by
  rw [List.map_map]
  rfl

/-- A failure of the gate ends the run in the world that setting up left. -/
theorem run_of_failure (hreal : s.mode = .real) {fs rest : List ProposalFile} {f : ProposalFile}
    {e : GateError} (hsurvey : w.exec (survey s now) = (.ok (fs ++ f :: rest), w₁))
    (hpass : g.Passes s.workspace w₁.requests (fs.map (decideOn s.gates now)))
    (hfail : g.answer s.workspace (w₁.requests ++ fs.map (requestFor s now))
      (decideOn s.gates now f) = .error e) :
    w.exec (run s (some g.review) now)
      = (.error (.gate (decideOn s.gates now f).fileName (decideOn s.gates now f).action e),
        { w₁ with requests := w₁.requests ++ (fs ++ [f]).map (requestFor s now) }) := by
  rw [← map_requestFor] at hfail
  have hconsult := consult_failed (rest.map (decideOn s.gates now)) hpass hfail
  have hrun := run_of_survey (some g) hsurvey
  rw [Option.map_some, reviewed_real hreal, World.exec_bind, List.map_append, List.map_cons,
    hconsult] at hrun
  rw [hrun]
  simp [requestFor]

/-- Decisions that the gate settles are carried out. -/
theorem run_of_settled (hreal : s.mode = .real) {final : List Decision}
    (hsurvey : w.exec (survey s now) = (.ok files, w₁))
    (hfinal : g.Settles s.workspace w₁.requests (files.map (decideOn s.gates now)) final) :
    w.exec (run s (some g.review) now)
      = World.exec { w₁ with requests := w₁.requests ++ files.map (requestFor s now) }
        (storing (carryOut s now final)) := by
  have hrun := run_of_survey (some g) hsurvey
  rw [Option.map_some, reviewed_real hreal, World.exec_bind, consult_settled hfinal,
    map_requestFor] at hrun
  exact hrun

/-- The gate is asked about the proposals in the order of their names, up to the first failure. A
failure leaves what setting up left; without one the gate is asked about every proposal. -/
theorem run_asks_before_it_acts (hreal : s.mode = .real) (hw : w.tree.WellFormed)
    (hrun : w.exec (run s (some g.review) now) = (r, w')) :
    (∀ e w₁, w.exec (survey s now) = (.error e, w₁) →
      r = .error e ∧ w' = w₁ ∧ w'.requests = w.requests) ∧
    (∀ files w₁, w.exec (survey s now) = (.ok files, w₁) →
      w.exec (setUp s now) = (.ok (), w₁) ∧
      Inbox.InOrder s.dirs.inbox files ∧
      (∀ fs f rest e, files = fs ++ f :: rest →
        g.Passes s.workspace w.requests (fs.map (decideOn s.gates now)) →
        g.answer s.workspace (w.requests ++ fs.map (requestFor s now)) (decideOn s.gates now f)
          = .error e →
        r = .error (.gate f.name (decideOn s.gates now f).action e) ∧
        w' = { w₁ with requests := w.requests ++ (fs ++ [f]).map (requestFor s now) }) ∧
      (g.Passes s.workspace w.requests (files.map (decideOn s.gates now)) →
        w'.requests = w.requests ++ files.map (requestFor s now) ∧
        ∀ file action e, r ≠ .error (.gate file action e))) := by
  refine ⟨fun e w₁ hsurvey => ?_, fun files w₁ hsurvey => ?_⟩
  · have hend := run_of_survey_error (some g) hsurvey
    obtain ⟨t, -, rfl⟩ := (survey_keeps s now).exec hsurvey
    cases hrun.symm.trans hend
    exact ⟨rfl, rfl, rfl⟩
  obtain ⟨hset, ⟨t, -, rfl⟩, ns, hscan⟩ := survey_ok hw hsurvey
  refine ⟨hset, hscan.inOrder, ?_, fun hpass => ?_⟩
  · rintro fs f rest e rfl hpass hfail
    obtain ⟨n, hread, hn⟩ := hscan.of_mem (f := f) (by simp)
    have hname : (decideOn s.gates now f).fileName = f.name := by
      rw [(about_decideOn hread s.gates now).fileName hn hread.proposal, hread.name]
    have hend := run_of_failure hreal hsurvey hpass hfail
    rw [hname] at hend
    cases hrun.symm.trans hend
    exact ⟨rfl, rfl⟩
  · obtain ⟨final, hfinal⟩ := hpass.settles
    have hend := hrun.symm.trans (run_of_settled hreal hsurvey hfinal)
    rw [exec_storing] at hend
    rcases hcarry : World.exec _ (carryOut s now final) with ⟨outcome, w₂⟩
    rw [hcarry] at hend
    obtain ⟨t', -, rfl⟩ := (carryOut_keeps s now final).exec hcarry
    cases hend
    refine ⟨rfl, fun file action e h => ?_⟩
    cases outcome with
    | ok o => cases h
    | error e => cases h

/-- The gate that demotes the first proposal it is asked about, and then fails. -/
def failsSecond : PolicyGate
  | [], _ => .ok [("allow", .bool false)]
  | _ :: _, _ => .error (.httpStatus 503)

/-- If the gate fails on the second of two proposals, it was asked about both, and the first one is
not demoted. -/
theorem run_asks_before_it_acts_failsSecond :
    let s := Specimen.settings
    let w : World := { tree := Specimen.twoProposals }
    let now : RunClock := .utc ⟨0, 0⟩
    s.mode = .real ∧ w.tree.WellFormed ∧
      w.exec (run s (some failsSecond.review) now)
        = (.error (.gate "b.md" (decideOn s.gates now Specimen.otherProposal).action
            (.httpStatus 503)),
          { tree := Specimen.preparedTree
            requests := [requestFor s now Specimen.proposal,
              requestFor s now Specimen.otherProposal] }) := by
  intro s w now
  have hreal : s.mode = .real := rfl
  have hw : w.tree.WellFormed := Specimen.twoProposals_wellFormed
  rcases hr : w.exec (run s (some failsSecond.review) now) with ⟨r, w'⟩
  obtain ⟨-, -, hfails, -⟩ := (run_asks_before_it_acts hreal hw hr).2 _ _ Specimen.survey_twoProposals
  obtain ⟨rfl, rfl⟩ := hfails [Specimen.proposal] Specimen.otherProposal [] (.httpStatus 503) rfl
    ⟨⟨.demote, rfl⟩, trivial⟩ rfl
  exact ⟨hreal, hw, rfl⟩

end Run

end ProposalReview
