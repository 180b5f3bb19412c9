import Mathlib
import ProposalReview.Pattern.Reader
import ProposalReview.Program
import ProposalReview.Proofs.Influence
import ProposalReview.Proofs.Refusal
/-!
What the exit status says about the tree.

The program ends in one of six ways, and each of them has its status: 0 after every proposal was applied
and the summary written, 1 as something could not be stored, 2 and 4 before the tree was touched, 3 with
nothing in the tree but directories and samples that were missing. The tree may have links: what is said
here holds of any tree.
-/

namespace ProposalReview

variable {w w' : World} {s : Settings} {now : RunClock} {o : Outcome}

/-! ### What a survey adds -/

namespace Tree

variable {F : Bytes → Prop} {t t₁ t' : Tree}

/-- Whether a change adds only directories and files of some contents, where nothing was. -/
def Adds (F : Bytes → Prop) (t t' : Tree) : Prop :=
  ∀ l, t'.entry? l = t.entry? l ∨ t.entry? l = none ∧
    (t'.entry? l = some .directory ∨ ∃ bytes time, F bytes ∧ t'.entry? l = some (.file bytes time))

theorem Adds.refl (F : Bytes → Prop) (t : Tree) : t.Adds F t := fun _ => Or.inl rfl

theorem Adds.trans (h : t.Adds F t₁) (h' : t₁.Adds F t') : t.Adds F t' := by
  intro l
  rcases h' l with hsame | ⟨hnone, hnew⟩
  · rw [hsame]
    exact h l
  · -- what the second change found free was free before the first one
    rcases h l with hsame | ⟨-, hdir | ⟨_, _, -, hfile⟩⟩
    · exact Or.inr ⟨hsame ▸ hnone, hnew⟩
    · simp [hnone] at hdir
    · simp [hnone] at hfile

instance : IsPreorder Tree (Adds F) where
  refl := Adds.refl F
  trans _ _ _ := Adds.trans

theorem Grows.adds (h : t.Grows ∅ t') : t.Adds F t' := by
  intro l
  exact (h l (Set.notMem_empty l)).imp_right fun ⟨hnone, hdir⟩ => ⟨hnone, Or.inl hdir⟩

theorem write_adds {p : Path} {bytes : Bytes} {time : Instant} (hF : F bytes)
    (habsent : t.isPresent p = false) (h : t.write p bytes time = .ok t') : t.Adds F t' := by
  obtain ⟨l, hl, hdir, rfl⟩ := write_ok h
  have hfree := entry?_of_absent hl habsent
  have hne : l ≠ [] := by
    rintro rfl
    simp at hfree
  intro m
  rw [entry?_put hne]
  split_ifs with hm
  · subst hm
    exact Or.inr ⟨hfree, Or.inr ⟨bytes, time, hF, rfl⟩⟩
  · exact Or.inl rfl

end Tree

/-- Whether samples are wanted, and one of them has a content. -/
def Settings.SampleText (s : Settings) (bytes : Bytes) : Prop :=
  s.seedSamples ∧ ∃ x ∈ Samples.all, bytes = Text.encodeString x.2

theorem Run.survey_adds (s : Settings) (now : RunClock) : Keeps (Tree.Adds s.SampleText)
    (survey s now : ExceptT RunError (StateM World) (List ProposalFile)).run := by
  refine survey_keeps_of (setUp_keeps_of now ?_ ?_)
  · intro p _ q _ t t' h
    exact (Tree.makeDirectory_grows h).adds
  · intro hwanted x hx t t' time habsent h
    exact Tree.write_adds ⟨hwanted, x, hx, rfl⟩ habsent h

/-! ### What a run that succeeds has done -/

/-- What applying decisions in order does to a tree: nothing in a dry run; in a real run every file is
moved, and then its incident is written if the decision calls for one. -/
def Filing.Applies (f : Filing) (ds : List Decision) (t t' : Tree) : Prop :=
  match f.mode with
  | .dryRun => t' = t
  | .real => f.Course (ds.map fun d => (d, f.incident? d)) t t'

/-- What a run that succeeds has done. Every proposal that was scanned got its local decision, up to
the action that a gate may have chosen, and the decisions were applied in order; after that only the
summary was written, which lists them all. -/
structure Run.Finished (s : Settings) (now : RunClock) (w : World) (o : Outcome) (w' : World) :
    Prop where
  applied : ∃ files w₁ ds t, w.exec (survey s now) = (.ok files, w₁) ∧
    List.Forall₂ (fun p d => ∃ a, d = (decideOn s.gates now p).override a) files ds ∧
    (filing s now).Applies ds w₁.tree t ∧ o.summary = summaryOf s now ds ∧
    ∃ t' time, t.Grows ∅ t' ∧
      t'.write o.summaryPath (Text.encodeString o.summary.text) time = .ok w'.tree
  written : w'.tree.content o.summaryPath = .ok (Text.encodeString o.summary.text)

theorem Filing.applyAll_applies {f : Filing} {ds : List Decision} {rs : List Record}
    (hmoves : f.mode = .real → ∀ d ∈ ds, d.action ≠ .hold)
    (h : w.exec (f.applyAll ds) = (.ok rs, w')) : f.Applies ds w.tree w'.tree := by
  cases hmode : f.mode with
  | dryRun =>
    rw [applyAll_dryRun hmode] at h
    cases h
    simp [Applies, hmode]
  | real => simpa [Applies, hmode] using applyAll_course hmode (hmoves hmode) h

theorem PolicyGate.Settles.overridden {g : PolicyGate} {workspace : String}
    {before : List GateRequest} {ds final : List Decision} (h : g.Settles workspace before ds final) :
    List.Forall₂ (fun d d' => ∃ a, d' = d.override a) ds final := by
  induction h with
  | nil => exact .nil
  | cons _ _ ih => exact .cons ⟨_, rfl⟩ ih

namespace Run

variable {gate : Option PolicyGate} {ds final : List Decision}

/-- Reviewing chooses actions only. -/
theorem reviewed_overrides
    (h : w.exec (reviewed s (gate.map PolicyGate.review) ds) = (.ok final, w')) :
    List.Forall₂ (fun d d' => ∃ a, d' = d.override a) ds final ∧
      (s.mode = .real → (∀ d ∈ ds, d.Unreviewed) → ∀ d ∈ final, d.action ≠ .hold) := by
  cases hmode : s.mode with
  | dryRun =>
    rw [reviewed_dryRun hmode] at h
    cases h
    refine ⟨List.forall₂_same.mpr fun d _ => ⟨d.action, d.override_action.symm⟩, ?_⟩
    intro hreal
    cases hreal
  | real =>
    cases gate with
    | none =>
      rw [Option.map_none, reviewed.eq_def, hmode] at h
      cases h
    | some g =>
      rw [Option.map_some, reviewed_real hmode] at h
      have hfinal := (consult_cases h).2 final rfl
      refine ⟨hfinal.overridden, ?_⟩
      intro _ hds d hd
      rcases (hfinal.accounted hds d hd).moves with ha | ha
      · simp [ha]
      · simp [ha]

theorem run_finished (h : w.exec (run s (gate.map PolicyGate.review) now) = (.ok o, w')) :
    Finished s now w o w' := by
  obtain ⟨files, w₁, ds, w₂, hsurvey, hreview, hcarry⟩ := run_ok h
  obtain ⟨hoverrides, hmoves⟩ := reviewed_overrides hreview
  obtain ⟨hsummary, w₃, happly, hwrite⟩ := carryOut_ok hcarry
  obtain ⟨t', hgrows, ⟨-, _, herr⟩ | ⟨t, hwritten, rfl, hpath⟩⟩ :=
    Filing.writeSummary_exec (Filing.create_keeps (allowsMaking_grows ∅) _) hwrite
  · cases herr
  rw [← Except.ok.inj hpath] at hwritten
  rw [List.forall₂_map_left_iff] at hoverrides
  have happlied : (filing s now).Applies ds w₁.tree w₃.tree := by
    rw [← reviewed_tree hreview]
    exact Filing.applyAll_applies (fun hreal => hmoves hreal unreviewed_of_mem) happly
  exact ⟨⟨files, w₁, ds, w₃.tree, hsurvey, hoverrides, happlied, hsummary, t', _, hgrows, hwritten⟩,
    Tree.content_write hwritten⟩

end Run

/-! ### How the program ends -/

namespace Program

variable {compile : Pattern.Compiler} {g : PolicyGateSettings → PolicyGate}
  {obstacle : PolicyGateSettings → Option String} {env : CommandLine.Environment} {args : List Bytes}
  {ending : Ending}

/-- Whether arguments are taken, and amount to some settings that nothing is wrong with. -/
def Accepts (compile : Pattern.Compiler) (env : CommandLine.Environment) (args : List Bytes)
    (s : Settings) : Prop :=
  ∃ choices, CommandLine.parse env args = .ok choices ∧ choices.settings compile = .ok s

theorem Accepts.check (h : Accepts compile env args s) : s.check = .ok () := by
  obtain ⟨choices, -, hs⟩ := h
  obtain ⟨s', -, hs⟩ := Except.ok_of_bind hs
  obtain ⟨_, hcheck, hs⟩ := Except.ok_of_bind hs
  cases hs
  exact hcheck

/-- Settings that pass the check have a gate to ask in a real run, unless no client can be made. -/
theorem gateFor_cases (g : PolicyGateSettings → PolicyGate)
    (obstacle : PolicyGateSettings → Option String) (h : s.check = .ok ()) :
    (∃ p detail, s.policyGate = some p ∧ obstacle p = some detail ∧
        gateFor (fun p => (g p).review) obstacle s = .error (.unreachable detail)) ∨
      ∃ gate : Option PolicyGate, gateFor (fun p => (g p).review) obstacle s
        = .ok (gate.map PolicyGate.review) ∧ (s.mode = .real → gate ≠ none) := by
  rw [gateFor]
  cases hmode : s.mode with
  | dryRun => exact Or.inr ⟨none, by simp, by simp⟩
  | real =>
    cases hgate : s.policyGate with
    | none =>
      have hc := (Run.check_eq_error_iff (e := .gateRequired)).mpr ⟨rfl, hmode, hgate⟩
      cases h.symm.trans hc
    | some p =>
      cases hp : obstacle p with
      | some detail => exact Or.inl ⟨p, detail, rfl, hp, by simp [hp]⟩
      | none => exact Or.inr ⟨some (g p), by simp [hp], by simp⟩

/-- The report that a gate blocks what is requested for a file, as it is printed: an object of four
strings on a line each, and the end of the last line. -/
def blockedText (file reason requested : String) : String :=
  "\x7b\n" ++
  "  \x22error\x22: \x22policy_gate_blocked_transition\x22,\n" ++
  "  \x22file\x22: " ++ String.ofList (Json.writeString file) ++ ",\n" ++
  "  \x22reason\x22: " ++ String.ofList (Json.writeString reason) ++ ",\n" ++
  "  \x22requested_action\x22: " ++ String.ofList (Json.writeString requested) ++ "\n" ++
  "\x7d\n"

theorem reportText_blocked (file requested : String) (e : GateError) :
    reportText (some (e.report file requested)) = blockedText file e.message requested := by
  have hplain : ∀ s ∈ ["error", "policy_gate_blocked_transition", "file", "reason",
      "requested_action"], Json.writeString s = '\x22' :: (s.toList ++ ['\x22']) := by decide
  simp only [List.forall_mem_cons] at hplain
  obtain ⟨herror, hblocked, hfile, hreason, hrequested, -⟩ := hplain
  apply String.toList_injective
  simp only [reportText, GateError.report, blockedText, Json.pretty, Json.writeIndented,
    Json.indentMembers, Json.newline, herror, hblocked, hfile, hreason, hrequested,
    String.toList_append, String.toList_ofList, List.append_assoc, List.cons_append, List.nil_append,
    List.append_nil]
  rfl

/-- How the program can end, and the world that it leaves then. -/
inductive Ends (compile : Pattern.Compiler) (obstacle : PolicyGateSettings → Option String)
    (now : RunClock) (env : CommandLine.Environment) (args : List Bytes) (w : World) :
    Ending → World → Prop
  /-- The arguments do not lead to a run. -/
  | usage {u : CommandLine.Usage} (parsed : CommandLine.parse env args = .error u) :
      Ends compile obstacle now env args w (ofUsage u) w
  /-- Something is wrong with the settings. -/
  | unfit {choices : Choices} {e : SettingsError} (parsed : CommandLine.parse env args = .ok choices)
      (refused : choices.settings compile = .error e) :
      Ends compile obstacle now env args w (ofSettingsError e) w
  /-- There is no way to ask the gate. -/
  | unasked {s : Settings} {p : PolicyGateSettings} {detail : String}
      (accepted : Accepts compile env args s) (wanted : s.policyGate = some p)
      (prevented : obstacle p = some detail) :
      Ends compile obstacle now env args w (ofGateError (.unreachable detail)) w
  /-- The gate blocked a proposal, and the tree is the one that the survey left. -/
  | blocked {s : Settings} {gate : Option PolicyGate} {files : List ProposalFile} {w₁ w' : World}
      {file : String} {action : Action} {e : GateError} (accepted : Accepts compile env args s)
      (surveyed : w.exec (Run.survey s now) = (.ok files, w₁)) (same : w'.tree = w₁.tree)
      (failed : w.exec (Run.run s (gate.map PolicyGate.review) now)
        = (.error (.gate file action e), w')) :
      Ends compile obstacle now env args w (ofRun (.error (.gate file action e))) w'
  /-- Something could not be stored. -/
  | unstored {s : Settings} {gate : Option PolicyGate} {cause : StoreError} {w' : World}
      (accepted : Accepts compile env args s)
      (failed : w.exec (Run.run s (gate.map PolicyGate.review) now) = (.error (.store cause), w')) :
      Ends compile obstacle now env args w (ofRun (.error (.store cause))) w'
  /-- The run succeeded. -/
  | finished {s : Settings} {o : Outcome} {w' : World} (accepted : Accepts compile env args s)
      (done : Run.Finished s now w o w') :
      Ends compile obstacle now env args w (ofRun (.ok o)) w'

/-- The program ends in one of these ways: settings that were accepted are not refused later. -/
theorem run_ends
    (h : (run compile (fun p => (g p).review) now env args obstacle).run w = (ending, w')) :
    Ends compile obstacle now env args w ending w' := by
  rw [run] at h
  cases hparse : CommandLine.parse env args with
  | error u =>
    rw [hparse] at h
    cases h
    exact .usage hparse
  | ok choices =>
    cases hsettings : choices.settings compile with
    | error e =>
      simp only [hparse, hsettings] at h
      cases h
      exact .unfit hparse hsettings
    | ok s =>
      have haccepted : Accepts compile env args s := ⟨choices, hparse, hsettings⟩
      simp only [hparse, hsettings] at h
      rcases gateFor_cases g obstacle haccepted.check with
        ⟨p, detail, hp, hobstacle, hgate⟩ | ⟨gate, hgate, hpresent⟩
      · rw [hgate] at h
        cases h
        exact .unasked haccepted hp hobstacle
      · rw [hgate] at h
        rcases hrun : w.exec (Run.run s (gate.map PolicyGate.review) now) with ⟨r, w₁⟩
        have hend : (ending, w') = (ofRun r, w₁) := by
          rw [← h]
          exact congrArg (fun x : _ × World => (ofRun x.1, x.2)) hrun
        cases hend
        cases r with
        | ok o => exact .finished haccepted (Run.run_finished hrun)
        | error e =>
          cases Run.run_fails hrun with
          | refused unfit => cases haccepted.check.symm.trans unfit
          | ungated real absent surveyed => exact absurd absent (hpresent real)
          | blocked real present surveyed asked =>
            exact .blocked haccepted surveyed (Run.consult_cases asked).1 hrun
          | unstored => exact .unstored haccepted hrun

/-- What the exit status says, unless help or the version was asked for, whatever the arguments, the
environment, the tree, the time, the gate's server and the maker of patterns are. After 0 every proposal
that was scanned was applied, and the output is the text of the summary's file and its path. After 2 and 4
nothing has happened. After 3 the tree is the one from before, or the one that a survey left: no more than
missing directories and samples are new in it; and the output is the report of what was blocked, which
names no proposal if there was no way to ask the gate. After 1 something could not be stored, and there is
no output. Arguments that are taken but amount to settings with something wrong end with 2 or 4. -/
theorem exit_status_tells
    (hrun : (run compile (fun p => (g p).review) now env args obstacle).run w = (ending, w'))
    (hrequest : ∀ u, CommandLine.parse env args = .error u → u ≠ .help ∧ u ≠ .version) :
    ending.status ∈ [0, 1, 2, 3, 4] ∧
    (ending.status = 0 → ∃ s o text, Accepts compile env args s ∧ Run.Finished s now w o w' ∧
      w'.tree.content o.summaryPath = .ok (Text.encodeString text) ∧
      ending.output = text ++ "\n\nlog_file=" ++ o.summaryPath.display ++ "\n") ∧
    (ending.status = 2 ∨ ending.status = 4 → w' = w) ∧
    (ending.status = 3 → ∃ s, Accepts compile env args s ∧ w.tree.Adds s.SampleText w'.tree ∧
      ((w' = w ∧ ∃ p detail, s.policyGate = some p ∧ obstacle p = some detail ∧
          ending.output = blockedText "" ("policy_gate_unreachable:" ++ detail) "") ∨
        ∃ files w₁ file action e, ∃ gate : Option PolicyGate,
          w.exec (Run.survey s now) = (.ok files, w₁) ∧ w'.tree = w₁.tree ∧
          w.exec (Run.run s (gate.map PolicyGate.review) now) = (.error (.gate file action e), w') ∧
          ending.output = blockedText file e.message action.word)) ∧
    (ending.status = 1 → ending.output = "" ∧ ∃ s, Accepts compile env args s ∧
      ∃ (gate : Option PolicyGate) (cause : StoreError),
        w.exec (Run.run s (gate.map PolicyGate.review) now) = (.error (.store cause), w')) ∧
    (∀ choices e, CommandLine.parse env args = .ok choices → choices.settings compile = .error e →
      ending.status = 2 ∨ ending.status = 4) := by
  -- with settings that were accepted, the last part is void
  have hfit : ∀ {s : Settings} {P : Prop}, Accepts compile env args s → ∀ choices e,
      CommandLine.parse env args = .ok choices → choices.settings compile = .error e → P := by
    rintro s P ⟨choices', hparse, hs⟩ choices e hparse' he
    cases hparse.symm.trans hparse'
    cases hs.symm.trans he
  cases run_ends hrun with
  | @usage u parsed =>
    have hu : u.exitStatus = 2 := by
      cases u with
      | help => exact absurd rfl (hrequest _ parsed).1
      | version => exact absurd rfl (hrequest _ parsed).2
      | _ => rfl
    simp [ofUsage, hu, parsed]
  | @unfit choices e parsed refused =>
    have he : e.exitStatus = 2 ∨ e.exitStatus = 4 := by
      cases e with
      | gateRequired => exact Or.inr rfl
      | _ => exact Or.inl rfl
    rcases he with he | he
    · simp [ofSettingsError, he]
    · simp [ofSettingsError, he]
  | @unasked s p detail accepted wanted prevented =>
    have hstatus : (ofGateError (.unreachable detail)).status = 3 := rfl
    simp only [hstatus]
    refine ⟨by simp, by simp, by simp, ?_, by simp, hfit accepted⟩
    intro _
    exact ⟨s, accepted, .refl _ _, Or.inl ⟨by simp, p, detail, wanted, prevented,
      reportText_blocked "" "" (.unreachable detail)⟩⟩
  | @blocked s gate files w₁ _ file action e accepted surveyed same failed =>
    have hstatus : (ofRun (.error (.gate file action e))).status = 3 := rfl
    simp only [hstatus]
    refine ⟨by simp, by simp, by simp, ?_, by simp, hfit accepted⟩
    intro _
    have hadds : w.tree.Adds s.SampleText w'.tree := by
      obtain ⟨t, hadds, rfl⟩ := (Run.survey_adds s now).exec surveyed
      rw [same]
      exact hadds
    exact ⟨s, accepted, hadds, Or.inr ⟨files, w₁, file, action, e, gate, surveyed, same, failed,
      reportText_blocked file action.word e⟩⟩
  | @unstored s gate cause _ accepted failed =>
    have hstatus : (ofRun (.error (.store cause))).status = 1 := rfl
    simp only [hstatus]
    refine ⟨by simp, by simp, by simp, by simp, ?_, hfit accepted⟩
    intro _
    exact ⟨rfl, s, accepted, gate, cause, failed⟩
  | @finished s o _ accepted done =>
    have hstatus : (ofRun (.ok o)).status = 0 := rfl
    simp only [hstatus]
    refine ⟨by simp, ?_, by simp, by simp, by simp, hfit accepted⟩
    intro _
    exact ⟨s, o, o.summary.text, accepted, done, done.written, rfl⟩

/-- With arguments for a real run, a gate that blocks the second proposal gives 3 and leaves directories
only, with a report on that proposal; and one that allows all gives 0 with the summary's text. -/
theorem exit_status_tells_specimen :
    let args := ["--inbox-dir=i", "--applied-dir=p", "--demoted-dir=d", "--incidents-dir=n",
      "--log-dir=l", "--real-run", "--confirm-real-run", "--policy-gate-url=g"].map Text.encodeString
    let w : World := { tree := Specimen.twoProposals }
    let blocked := (run Pattern.compile (fun _ => Run.failsSecond.review) (.utc ⟨0, 0⟩) {} args).run w
    let passed := (run Pattern.compile (fun _ => allowsAll.review) (.utc ⟨0, 0⟩) {} args).run w
    (∀ u, CommandLine.parse {} args = .error u → u ≠ .help ∧ u ≠ .version) ∧
      blocked.1.status = 3 ∧ (∃ s : Settings, w.tree.Adds s.SampleText blocked.2.tree) ∧
      blocked.1.output = blockedText "b.md" "policy_gate_http_503" "demote" ∧
      passed.1.status = 0 ∧ ∃ (text : String) (p : Path),
        passed.2.tree.content p = .ok (Text.encodeString text) ∧
        passed.1.output = text ++ "\n\nlog_file=" ++ p.display ++ "\n" := by
  intro args w blocked passed
  have hrequest : ∀ u, CommandLine.parse {} args = .error u → u ≠ .help ∧ u ≠ .version := by
    have hok : (CommandLine.parse {} args).isOk := by decide +kernel
    intro u hu
    rw [hu] at hok
    cases hok
  have hblocked : blocked.1.status = 3 := by decide +kernel
  have hpassed : passed.1.status = 0 := by decide +kernel
  obtain ⟨-, -, -, hthree, -⟩ := exit_status_tells (Prod.mk.eta (p := blocked)).symm hrequest
  obtain ⟨-, hzero, -⟩ := exit_status_tells (Prod.mk.eta (p := passed)).symm hrequest
  obtain ⟨s, -, hadds, -⟩ := hthree hblocked
  obtain ⟨_, o, text, -, -, hcontent, houtput⟩ := hzero hpassed
  exact ⟨hrequest, hblocked, ⟨s, hadds⟩, by decide +kernel, hpassed, text, o.summaryPath, hcontent,
    houtput⟩

end Program

end ProposalReview
