import Mathlib
import ProposalReview.Proofs.Filing.Lockstep
import ProposalReview.Proofs.Independence
import ProposalReview.Proofs.Margins
import ProposalReview.Proofs.Reasons
/-!
The least margin rate only advises.

Two runs whose settings differ in the least margin rate decide alike but for the warnings, and nothing that
is done goes by these: not the requests' answers if the gate does not go by them, not where a file goes,
and not what an incident says. So the runs go in step until the summary is written, whose text is all that
differs in the end.
-/

namespace ProposalReview

/-- Settings with another least margin rate that is not warned of. -/
def Settings.withLeastMargin (s : Settings) (least : Float) : Settings :=
  { s with gates := s.gates.withLeastMargin least }

/-! ### What differs in the warnings only -/

/-- Whether two requests differ in the warnings only. -/
def GateRequest.SameButWarnings (q q' : GateRequest) : Prop := ∃ ws, q' = { q with warnings := ws }

/-- Whether two records differ in the warnings only. -/
def Record.SameButWarnings (r r' : Record) : Prop :=
  ∃ ws, r' = { r with decision := { r.decision with warnings := ws } }

/-- Whether two summaries differ only in the least margin rate, in the warnings, and in the files that are
listed for their margins. -/
structure Summary.SameButWarnings (x x' : Summary) : Prop where
  timeUtc : x'.timeUtc = x.timeUtc
  dryRun : x'.dryRun = x.dryRun
  counts : x'.counts = { x.counts with warn := x'.counts.warn }
  economics : x'.economics
    = { x.economics with minMarginRateAdvisory := x'.economics.minMarginRateAdvisory }
  decisions : List.Forall₂ Record.SameButWarnings x.decisions x'.decisions

/-- Whether the answers of a gate do not depend on warnings, neither those of a request nor those of the
requests before it. -/
def PolicyGate.IgnoresWarnings (g : PolicyGate) : Prop :=
  ∀ {before before' q q'}, List.Forall₂ GateRequest.SameButWarnings before before' →
    q.SameButWarnings q' → g before' q' = g before q

theorem promotesAll_ignoresWarnings : promotesAll.IgnoresWarnings := fun _ _ => rfl

section

variable {d d' : Decision} {workspace : String} {f : Filing} {rs rs' : List Record}

namespace Decision.SameButWarnings

theorem override (h : d.SameButWarnings d') (a : Action) :
    (d.override a).SameButWarnings (d'.override a) := by
  obtain ⟨ws, rfl⟩ := h
  rw [Decision.override_eq, Decision.override_eq]
  exact ⟨_, rfl⟩

theorem request (h : d.SameButWarnings d') (workspace : String) :
    (GateRequest.ofDecision workspace d).SameButWarnings (GateRequest.ofDecision workspace d') := by
  obtain ⟨ws, rfl⟩ := h
  exact ⟨ws, rfl⟩

theorem record (h : d.SameButWarnings d') (f : Filing) :
    (f.record d).SameButWarnings (f.record d') := by
  obtain ⟨ws, rfl⟩ := h
  exact ⟨ws, rfl⟩

theorem answer {g : PolicyGate} (hg : g.IgnoresWarnings) {before before' : List GateRequest}
    (hbefore : List.Forall₂ GateRequest.SameButWarnings before before') (h : d.SameButWarnings d') :
    g.answer workspace before' d' = g.answer workspace before d := by
  have hreply := hg hbefore (h.request workspace)
  obtain ⟨ws, rfl⟩ := h
  rw [PolicyGate.answer, PolicyGate.answer, hreply]

end Decision.SameButWarnings

theorem Summary.ofRecords_sameButWarnings (h : List.Forall₂ Record.SameButWarnings rs rs')
    (timeUtc : String) (dryRun : Bool) (least least' : Float) :
    (Summary.ofRecords timeUtc dryRun least rs).SameButWarnings
      (Summary.ofRecords timeUtc dryRun least' rs') := by
  have hactions : rs'.map (fun r => r.decision.action) = rs.map fun r => r.decision.action :=
    map_eq_of_forall₂ (by rintro r _ ⟨ws, rfl⟩; rfl) h
  have hkpis : rs'.map (fun r => r.decision.kpi) = rs.map fun r => r.decision.kpi :=
    map_eq_of_forall₂ (by rintro r _ ⟨ws, rfl⟩; rfl) h
  have hcount : ∀ a, Summary.countAction a rs' = Summary.countAction a rs := by
    intro a
    have hread : ∀ rs : List Record,
        Summary.countAction a rs = (rs.map fun r => r.decision.action).countP (· == a) := by
      intro rs
      rw [List.countP_map]
      rfl
    rw [hread rs, hread rs', hactions]
  refine ⟨rfl, rfl, ?_, ?_, h⟩
  · simp only [Summary.ofRecords, Summary.countsOf, hcount, h.length_eq]
  · change Summary.economicsOf least' rs' = { Summary.economicsOf least rs with
      minMarginRateAdvisory := least' }
    rw [Summary.economicsOf_congr hkpis]
    rfl

end

/-! ### Going in step -/

/-- Two worlds that differ only in the warnings of the requests received. -/
abbrev World.SameButWarnings : World → World → Prop :=
  World.Alike (List.Forall₂ GateRequest.SameButWarnings)

section

variable {f : Filing} {g : PolicyGate} {workspace : String} {d d' : Decision} {ds ds' : List Decision}
  {w v : World}

theorem Run.consultOn_inStep (hg : g.IgnoresWarnings) (h : w.SameButWarnings v)
    (hd : d.SameButWarnings d') : InStep World.SameButWarnings
      (fun e e' w v => e.SameButWarnings e' ∧ w.SameButWarnings v)
      (w.exec (consultOn g.review workspace d)) (v.exec (consultOn g.review workspace d')) := by
  have hworlds : World.SameButWarnings
      { w with requests := w.requests ++ [GateRequest.ofDecision workspace d] }
      { v with requests := v.requests ++ [GateRequest.ofDecision workspace d'] } :=
    ⟨h.tree, h.now, List.rel_append h.requests (.cons (hd.request workspace) .nil)⟩
  rw [consultOn_exec, consultOn_exec, hd.answer hg h.requests]
  cases g.answer workspace w.requests d with
  | ok a => exact .ok ⟨hd.override a, hworlds⟩
  | error e =>
    obtain ⟨ws, rfl⟩ := hd
    exact .error hworlds

theorem Run.consult_inStep (hg : g.IgnoresWarnings) (h : w.SameButWarnings v)
    (hds : List.Forall₂ Decision.SameButWarnings ds ds') : InStep World.SameButWarnings
      (fun es es' w v => List.Forall₂ Decision.SameButWarnings es es' ∧ w.SameButWarnings v)
      (w.exec (consult g.review workspace ds)) (v.exec (consult g.review workspace ds')) := by
  induction hds generalizing w v with
  | nil => exact .ok ⟨.nil, h⟩
  | cons hd _ ih => exact (consultOn_inStep hg h hd).cons fun _ _ h₁ => ih h₁

/-- Where a file goes and what its incident says does not depend on warnings. -/
theorem Filing.apply_inStep (h : w.SameButWarnings v) (hd : d.SameButWarnings d') :
    InStep World.SameButWarnings (fun r r' w v => r.SameButWarnings r' ∧ w.SameButWarnings v)
      (w.exec (f.apply d)) (v.exec (f.apply d')) := by
  have hrecord := hd.record f
  obtain ⟨ws, rfl⟩ := hd
  have hmove : (f.move { d with warnings := ws } : ExceptT StoreError (StateM World) Unit)
      = f.move d := rfl
  have hfile : (f.fileIncident { d with warnings := ws } : ExceptT StoreError (StateM World) Unit)
      = f.fileIncident d := rfl
  rw [apply, apply, hmove, hfile]
  split
  · refine ((f.move_oblivious d).inStep h).bind ?_
    rintro _ _ w₁ v₁ ⟨-, h₁⟩
    refine ((f.fileIncident_oblivious d).inStep h₁).bind ?_
    rintro _ _ w₂ v₂ ⟨-, h₂⟩
    exact .ok ⟨hrecord, h₂⟩
  · exact .ok ⟨hrecord, h⟩

theorem Filing.applyAll_inStep (h : w.SameButWarnings v)
    (hds : List.Forall₂ Decision.SameButWarnings ds ds') : InStep World.SameButWarnings
      (fun rs rs' w v => List.Forall₂ Record.SameButWarnings rs rs' ∧ w.SameButWarnings v)
      (w.exec (f.applyAll ds)) (v.exec (f.applyAll ds')) := by
  induction hds generalizing w v with
  | nil => exact .ok ⟨.nil, h⟩
  | cons hd _ ih => exact (apply_inStep h hd).cons fun _ _ h₁ => ih h₁

end

/-! ### The summary -/

/-- Two trees that differ only in the file that a path leads to, which in each of them holds the text of a
summary and was written at the same time. -/
def Tree.SameButSummary (p : Path) (x x' : Summary) (t t' : Tree) : Prop :=
  ∃ l time, t.locate p = .ok l ∧ t'.locate p = .ok l ∧
    t.entry? l = some (.file (Text.encodeString x.text) time) ∧
    t'.entry? l = some (.file (Text.encodeString x'.text) time) ∧
    ∀ m, m ≠ l → t'.entry? m = t.entry? m

theorem Tree.put_sameButSummary {t : Tree} {p : Path} {l : Location} (hl : t.locate p = .ok l)
    (hfree : t.Writable l) (x x' : Summary) (time : Instant) :
    Tree.SameButSummary p x x' (t.put l (.file (Text.encodeString x.text) time))
      (t.put l (.file (Text.encodeString x'.text) time)) := by
  have hput := fun (e : Entry) m => entry?_put (t := t) (m := m) (e := e) hfree.ne_nil
  refine ⟨l, time, (agreeBut_put hfree).locate hl, (agreeBut_put hfree).locate hl, ?_, ?_,
    fun m hm => ?_⟩
  · rw [hput, if_pos rfl]
  · rw [hput, if_pos rfl]
  · rw [hput, hput, if_neg hm, if_neg hm]

/-- Whether a summary can be written, and where, does not depend on what it says. -/
theorem Filing.writeSummary_inStep (f : Filing) (x x' : Summary) {w v : World}
    (h : w.SameButWarnings v) : InStep World.SameButWarnings
      (fun p p' w v => p' = p ∧ Tree.SameButSummary p x x' w.tree v.tree)
      (w.exec (f.writeSummary x)) (v.exec (f.writeSummary x')) := by
  refine ((create_oblivious _).inStep h).bind fun _ _ w₁ v₁ ⟨_, h₁⟩ => ?_
  refine InStep.bind (V := fun _ _ w v => Tree.SameButSummary f.summaryPath x x' w.tree v.tree) ?_
    fun _ _ w₂ v₂ h₂ => .ok ⟨rfl, h₂⟩
  rw [World.exec_write, World.exec_write, h₁.tree, h₁.now]
  rcases w₁.tree.write_cases f.summaryPath w₁.now with ⟨e, he⟩ | ⟨l, hl, hfree, hok⟩
  · rw [he, he]
    exact .error h₁
  · rw [hok, hok]
    exact .ok (Tree.put_sameButSummary hl hfree x x' w₁.now)

namespace Run

variable {s : Settings} {gate : Option PolicyGate} {now : RunClock} {least : Float} {w v v' : World}
  {ds ds' : List Decision} {r r' : Except RunError Outcome}

/-- What two outcomes, and the worlds that they are reached in, agree in. -/
def OutcomesAgree (o o' : Outcome) (v v' : World) : Prop :=
  o'.summaryPath = o.summaryPath ∧ o.summary.SameButWarnings o'.summary ∧
    Tree.SameButSummary o.summaryPath o.summary o'.summary v.tree v'.tree

theorem carryOut_inStep (h : w.SameButWarnings v)
    (hds : List.Forall₂ Decision.SameButWarnings ds ds') :
    InStep World.SameButWarnings OutcomesAgree (w.exec (carryOut s now ds))
      (v.exec (carryOut (s.withLeastMargin least) now ds')) := by
  refine (Filing.applyAll_inStep h hds).bind fun rs rs' w₁ v₁ ⟨hrs, h₁⟩ => ?_
  have hsummary := Summary.ofRecords_sameButWarnings hrs now.timeUtc s.mode.isDryRun
    s.gates.minMarginRate least
  exact ((filing s now).writeSummary_inStep _ _ h₁).bind fun p p' w₂ v₂ ⟨hp, h₂⟩ =>
    .ok ⟨hp, hsummary, h₂⟩

theorem reviewed_inStep (hg : s.mode = .real → ∀ g ∈ gate, g.IgnoresWarnings)
    (h : w.SameButWarnings v) (hds : List.Forall₂ Decision.SameButWarnings ds ds') :
    InStep World.SameButWarnings
      (fun es es' w v => List.Forall₂ Decision.SameButWarnings es es' ∧ w.SameButWarnings v)
      (w.exec (reviewed s (gate.map PolicyGate.review) ds))
      (v.exec (reviewed (s.withLeastMargin least) (gate.map PolicyGate.review) ds')) := by
  have hsame : reviewed (s.withLeastMargin least) (gate.map PolicyGate.review) ds'
      = reviewed s (gate.map PolicyGate.review) ds' := rfl
  rw [hsame]
  cases hmode : s.mode with
  | dryRun =>
    rw [reviewed_dryRun hmode, reviewed_dryRun hmode]
    exact .ok ⟨hds, h⟩
  | real =>
    cases gate with
    | none =>
      rw [Option.map_none, reviewed.eq_def, reviewed.eq_def, hmode]
      exact .error h
    | some g =>
      rw [Option.map_some, reviewed_real hmode, reviewed_real hmode]
      exact consult_inStep (hg hmode g rfl) h hds

theorem run_inStep (hg : s.mode = .real → ∀ g ∈ gate, g.IgnoresWarnings) (now : RunClock)
    (least : Float) (w : World) : InStep World.SameButWarnings OutcomesAgree
      (w.exec (run s (gate.map PolicyGate.review) now))
      (w.exec (run (s.withLeastMargin least) (gate.map PolicyGate.review) now)) := by
  have hself : ∀ w : World, w.SameButWarnings w := fun w =>
    ⟨rfl, rfl, List.forall₂_same.mpr fun q _ => ⟨q.warnings, rfl⟩⟩
  have hsurvey : (survey (s.withLeastMargin least) now :
      ExceptT RunError (StateM World) (List ProposalFile)) = survey s now := rfl
  rw [run, run, hsurvey]
  -- setting up and scanning are the same program in the same world
  refine InStep.bind (V := fun files files' w v => files' = files ∧ v = w) ?_ ?_
  · rcases w.exec (survey s now) with ⟨e | files, w₁⟩
    · exact .error (hself w₁)
    · exact .ok ⟨rfl, rfl⟩
  · rintro _ files _ w₁ ⟨rfl, rfl⟩
    have hlocal : List.Forall₂ Decision.SameButWarnings (files.map (decideOn s.gates now))
        (files.map (decideOn (s.withLeastMargin least).gates now)) := by
      rw [List.forall₂_map_left_iff, List.forall₂_map_right_iff]
      exact List.forall₂_same.mpr fun f _ => Candidate.decide_withLeastMargin _ s.gates f.path least
    refine (reviewed_inStep hg (hself w₁) hlocal).bind ?_
    rintro es es' w₂ v₂ ⟨hes, h₂⟩
    exact (carryOut_inStep h₂ hes).storing

/-- Two runs in one world whose settings differ in the least margin rate, dry or with a gate that does not
go by warnings, end alike. Either both fail with the same error and leave the same tree; or both succeed,
their summaries differ in nothing but that rate, the warnings and what follows from these, and so do the
trees, in the text of the summary. -/
theorem run_ignores_least_margin (hg : s.mode = .real → ∀ g ∈ gate, g.IgnoresWarnings)
    (hrun : w.exec (run s (gate.map PolicyGate.review) now) = (r, v))
    (hrun' : w.exec (run (s.withLeastMargin least) (gate.map PolicyGate.review) now) = (r', v')) :
    (∃ e, r = .error e ∧ r' = .error e ∧ v'.tree = v.tree) ∨
      ∃ o o', r = .ok o ∧ r' = .ok o' ∧ o'.summaryPath = o.summaryPath ∧
        o.summary.SameButWarnings o'.summary ∧
        Tree.SameButSummary o.summaryPath o.summary o'.summary v.tree v'.tree := by
  have h := run_inStep hg now least w
  rw [hrun, hrun'] at h
  cases h with
  | error ended => exact .inl ⟨_, rfl, rfl, ended.tree⟩
  | ok ended => exact .inr ⟨_, _, rfl, rfl, ended⟩

/-- Of three proposals that are all promoted, one or two are listed for their margins, depending on the
least rate; nothing else differs but the text of the summary. -/
theorem run_ignores_least_margin_promotesAll :
    let w : World := { tree := Specimen.priced }
    let review := (some promotesAll).map PolicyGate.review
    ∃ o v o' v', w.exec (run Specimen.settings review (.utc ⟨0, 0⟩)) = (.ok o, v) ∧
      w.exec (run (Specimen.settings.withLeastMargin 0.9) review (.utc ⟨0, 0⟩)) = (.ok o', v') ∧
      o.summary.marginFiles = ["a.md"] ∧ o'.summary.marginFiles = ["a.md", "b.md"] ∧
      o.summary.SameButWarnings o'.summary ∧
      Tree.SameButSummary o.summaryPath o.summary o'.summary v.tree v'.tree := by
  intro w review
  have hseen : ((w.exec (run Specimen.settings review (.utc ⟨0, 0⟩))).1.toOption.map fun o =>
      o.summary.marginFiles) = some ["a.md"] := by decide +kernel
  have hseen' : ((w.exec (run (Specimen.settings.withLeastMargin 0.9) review (.utc ⟨0, 0⟩))).1.toOption.map
      fun o => o.summary.marginFiles) = some ["a.md", "b.md"] := by decide +kernel
  obtain ⟨o, v, hrun, hfiles⟩ := World.exists_of_seen hseen
  obtain ⟨o', v', hrun', hfiles'⟩ := World.exists_of_seen hseen'
  have hgate : Specimen.settings.mode = .real → ∀ g ∈ some promotesAll, g.IgnoresWarnings :=
    fun _ g hg => Option.mem_some.mp hg ▸ promotesAll_ignoresWarnings
  rcases run_ignores_least_margin hgate hrun hrun' with ⟨e, herr, -⟩ | ⟨_, _, ho, ho', -, hsame, htrees⟩
  · cases herr
  · cases ho
    cases ho'
    exact ⟨o, v, o', v', hrun, hrun', hfiles, hfiles', hsame, htrees⟩

end Run

end ProposalReview
