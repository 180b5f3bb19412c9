import Mathlib
import ProposalReview.Proofs.Incidents
import ProposalReview.Proofs.Override
import ProposalReview.Proofs.Preview
/-!
What a policy gate can change.

Two real runs from one world that both succeed, each with a gate of its own, carry out the same local
decisions; what the gates answer only chooses the actions. So the records differ in the filing only,
and incidents are written for the same proposals, to the same paths.
-/

namespace ProposalReview

variable {f : Filing} {d d' : Decision} {ds final final' : List Decision} {rs rs' : List Record}
  {w w' : World}

/-! ### Decisions that differ in the action only -/

/-- Whether the warnings of a decision are the given ones, with or without that of an override after
them. -/
def Decision.Warns (d : Decision) (ws : List String) : Prop :=
  d.warnings = ws ∨ d.warnings = ws ++ [overrideWarning]

/-- Whether two decisions differ only in the action, and in whether its override is warned of. -/
structure Decision.SameButAction (d d' : Decision) : Prop where
  file : d'.file = d.file
  source : d'.source = d.source
  reasons : d'.reasons = d.reasons
  kpi : d'.kpi = d.kpi
  ageHours : d'.ageHours = d.ageHours
  warnings : ∃ ws, overrideWarning ∉ ws ∧ d.Warns ws ∧ d'.Warns ws

theorem Decision.warns_override (d : Decision) (a : Action) : (d.override a).Warns d.warnings := by
  rw [override]
  split
  · exact Or.inl rfl
  · exact Or.inr rfl

/-- A local decision that is settled in two ways. -/
theorem Decision.Unreviewed.sameButAction (h : d.Unreviewed) (a a' : Action) :
    (d.override a).SameButAction (d.override a') := by
  have hwarnings : ∃ ws, overrideWarning ∉ ws ∧ (d.override a).Warns ws ∧ (d.override a').Warns ws :=
    ⟨d.warnings, h.unwarned, d.warns_override a, d.warns_override a'⟩
  rw [d.override_eq a, d.override_eq a'] at hwarnings ⊢
  exact ⟨rfl, rfl, rfl, rfl, rfl, hwarnings⟩

/-- Two gates that both settle the same local decisions choose their actions only. -/
theorem PolicyGate.Settles.sameButAction {g g' : PolicyGate} {workspace : String}
    {before before' : List GateRequest} (h : g.Settles workspace before ds final)
    (h' : g'.Settles workspace before' ds final') (hds : ∀ d ∈ ds, d.Unreviewed) :
    List.Forall₂ Decision.SameButAction final final' := by
  induction h generalizing before' final' with
  | nil =>
    cases h'
    exact .nil
  | @cons _ d _ a _ _ _ ih =>
    obtain ⟨hd, hds⟩ := List.forall_mem_cons.mp hds
    cases h' with
    | @cons _ _ _ a' _ _ hrest => exact .cons (hd.sameButAction a a') (ih hrest hds)

/-- The path of the incident that a decision calls for. -/
def Filing.incident? (f : Filing) (d : Decision) : Option Path :=
  if d.reasons = [] then none else some (f.incidentPath d)

namespace Decision.SameButAction

theorem fileName (h : d.SameButAction d') : d'.fileName = d.fileName := by
  simp only [Decision.fileName, h.file]

theorem incidentPath (h : d.SameButAction d') (f : Filing) : f.incidentPath d' = f.incidentPath d := by
  simp only [Filing.incidentPath, Incident.path, Incident.fileName, Decision.fileStem, h.fileName,
    h.file]

/-- Only the warning of an override tells the decisions apart. -/
theorem hasWarning (h : d.SameButAction d') {code : String} (hcode : code ≠ overrideWarning) :
    d'.hasWarning code = d.hasWarning code := by
  have hwarns : ∀ {d : Decision} {ws : List String}, d.Warns ws →
      d.hasWarning code = ws.contains code := by
    rintro d ws (h | h)
    · rw [Decision.hasWarning, h]
    · rw [Decision.hasWarning, h]
      simp [hcode]
  obtain ⟨ws, -, hd, hd'⟩ := h.warnings
  rw [hwarns hd, hwarns hd']

theorem incident? (h : d.SameButAction d') (f : Filing) : f.incident? d' = f.incident? d := by
  rw [Filing.incident?, Filing.incident?, h.reasons, h.incidentPath f]

end Decision.SameButAction

/-! ### Records that differ in the filing only -/

/-- Whether two records differ only in the action, in where it takes the file, and in whether its
override is warned of. -/
structure Record.SameButFiling (r r' : Record) : Prop where
  decision : r.decision.SameButAction r'.decision
  incident : r'.incident = r.incident

theorem Filing.incident_record (f : Filing) (d : Decision) :
    (f.record d).incident = (f.incident? d).map Path.display := by
  rw [record, incident?]
  by_cases hreasons : d.reasons = []
  · simp [hreasons]
  · simp [hreasons]

theorem Decision.SameButAction.record (h : d.SameButAction d') (f : Filing) :
    (f.record d).SameButFiling (f.record d') where
  decision := h
  incident := by rw [f.incident_record, f.incident_record, h.incident? f]

/-- What is read off the members of two lists is equal, if it is for corresponding members. -/
theorem map_eq_of_forall₂ {α β : Type} {R : α → α → Prop} {φ : α → β}
    (hφ : ∀ {a a' : α}, R a a' → φ a' = φ a) {as as' : List α} (h : List.Forall₂ R as as') :
    as'.map φ = as.map φ := by
  induction h with
  | nil => rfl
  | cons ha _ ih => rw [List.map_cons, List.map_cons, hφ ha, ih]

namespace Summary

/-- The economics are read off the key figures. -/
theorem economicsOf_congr
    (h : rs'.map (fun r => r.decision.kpi) = rs.map fun r => r.decision.kpi) (least : Float) :
    economicsOf least rs' = economicsOf least rs := by
  have hread : ∀ rs : List Record, economicsOf least rs =
      let kpis := rs.map fun r => r.decision.kpi
      let revenue := sum (kpis.map fun k => k.revenueUsdc.getD 0.0)
      let cost := sum (kpis.map fun k => k.tokenCostUsdc.getD 0.0)
      ⟨revenue, cost, revenue - cost, mean? (kpis.filterMap Kpi.marginRate), least⟩ := by
    intro rs
    simp only [economicsOf, List.map_map, List.filterMap_map]
    rfl
  rw [hread rs, hread rs', h]

/-- What a record shows of its margin rate: whether it is warned of, and the file. -/
def marginShown (r : Record) : Bool × String :=
  (r.decision.hasWarning marginWarning, r.decision.fileName)

theorem marginFilesOf_congr (h : rs'.map marginShown = rs.map marginShown) :
    marginFilesOf rs' = marginFilesOf rs := by
  have hread : ∀ rs : List Record,
      marginFilesOf rs = ((rs.map marginShown).filter Prod.fst).map Prod.snd := by
    intro rs
    rw [List.filter_map, List.map_map]
    rfl
  rw [hread rs, hread rs', h]

theorem economicsOf_eq (h : List.Forall₂ Record.SameButFiling rs rs') (least : Float) :
    economicsOf least rs' = economicsOf least rs :=
  economicsOf_congr (map_eq_of_forall₂ (fun hr => hr.decision.kpi) h) least

theorem marginFilesOf_eq (h : List.Forall₂ Record.SameButFiling rs rs') :
    marginFilesOf rs' = marginFilesOf rs := by
  refine marginFilesOf_congr (map_eq_of_forall₂ (fun hr => ?_) h)
  rw [marginShown, marginShown, hr.decision.hasWarning (by decide), hr.decision.fileName]

end Summary

/-! ### What carrying out writes -/

/-- What is done to a tree by carrying out decisions in order, each with the path that its incident is
written to, if any: every file is moved, and then the incident is written. -/
inductive Filing.Course (f : Filing) : List (Decision × Option Path) → Tree → Tree → Prop
  | done {t} : Course f [] t t
  | moved {d xs t t₁ t'} (move : t.rename d.sourcePath (f.destination d) = .ok t₁)
      (rest : Course f xs t₁ t') : Course f ((d, none) :: xs) t t'
  | filed {d p xs t t₁ t₂ t₃ t'} {time : Instant}
      (move : t.rename d.sourcePath (f.destination d) = .ok t₁) (make : t₁.Grows ∅ t₂)
      (write : t₂.write p (Text.encodeString (Incident.text d f.now false)) time = .ok t₃)
      (rest : Course f xs t₃ t') : Course f ((d, some p) :: xs) t t'

/-- Filing a decision's incident without an error writes it, if the decision calls for one. -/
theorem Filing.fileIncident_ok (hmode : f.mode = .real)
    (h : w.exec (f.fileIncident d) = (.ok (), w')) :
    f.incident? d = none ∧ w' = w ∨ ∃ t t', f.incident? d = some (f.incidentPath d) ∧
      w.tree.Grows ∅ t ∧ t.write (f.incidentPath d) (Text.encodeString (Incident.text d f.now false))
        w.now = .ok t' ∧ w' = { w with tree := t' } := by
  by_cases hreasons : d.reasons = []
  · rw [fileIncident, if_pos (by simp [hreasons])] at h
    cases h
    exact Or.inl ⟨if_pos hreasons, rfl⟩
  · rw [fileIncident, if_neg (by simpa using hreasons), hmode] at h
    obtain ⟨_, w₁, hcreate, hwrite⟩ := World.exec_ok_of_bind h
    obtain ⟨⟨t, hgrows, rfl⟩, -⟩ := create_exec hcreate
    rcases World.change_cases hwrite with ⟨t', hwritten, -, rfl⟩ | ⟨cause, -, herr, -⟩
    · exact Or.inr ⟨t, t', if_neg hreasons, hgrows, hwritten, rfl⟩
    · cases herr

/-- Carrying out decisions without an error writes the incidents that they call for, and no others. -/
theorem Filing.applyAll_course (hmode : f.mode = .real) (hmoves : ∀ d ∈ ds, d.action ≠ .hold)
    (h : w.exec (f.applyAll ds) = (.ok rs, w')) :
    f.Course (ds.map fun d => (d, f.incident? d)) w.tree w'.tree := by
  induction ds generalizing w w' rs with
  | nil =>
    cases h
    exact .done
  | cons d ds ih =>
    obtain ⟨hd, hds⟩ := List.forall_mem_cons.mp hmoves
    obtain ⟨r, w₁, happly, h⟩ := World.exec_ok_of_bind h
    obtain ⟨rs', w₂, hrest, hlast⟩ := World.exec_ok_of_bind h
    obtain ⟨t, hmove, hfile⟩ := apply_ok_cases hmode hd happly
    cases hlast
    have hcourse := ih hds hrest
    rw [List.map_cons]
    rcases fileIncident_ok hmode hfile with ⟨hnone, rfl⟩ | ⟨t', t'', hsome, hmake, hwrite, rfl⟩
    · rw [hnone]
      exact .moved hmove hcourse
    · rw [hsome]
      exact .filed hmove hmake hwrite hcourse

/-! ### Runs -/

namespace Run

variable {s : Settings} {now : RunClock} {g g' : PolicyGate} {v v' : World} {o o' : Outcome}

/-- A real run that succeeds has settled the local decisions about the proposals that were scanned, and
carried them out; then it has only written the summary. -/
theorem run_ok_settled (hreal : s.mode = .real) (hrun : w.exec (run s (some g.review) now) = (.ok o, v)) :
    ∃ files w₁ final t, w.exec (survey s now) = (.ok files, w₁) ∧
      g.Settles s.workspace w₁.requests (files.map (decideOn s.gates now)) final ∧
      o.summary = summaryOf s now final ∧
      (filing s now).Course (final.map fun d => (d, (filing s now).incident? d)) w₁.tree t ∧
      t.Steady {(filing s now).summaryPath.place} v.tree := by
  obtain ⟨files, w₁, final, w₂, hsurvey, hreview, hcarry⟩ := run_ok hrun
  rw [reviewed_real hreal] at hreview
  obtain ⟨htree, hsettles⟩ := consult_cases hreview
  have hfinal := hsettles final rfl
  obtain ⟨hsummary, w₃, happly, hwrite⟩ := carryOut_ok hcarry
  have hmoves : ∀ d ∈ final, d.action ≠ .hold := by
    intro d hd
    rcases (hfinal.accounted unreviewed_of_mem d hd).moves with h | h <;> simp [h]
  have hcourse := Filing.applyAll_course hreal hmoves happly
  rw [htree] at hcourse
  obtain ⟨t, hsteady, rfl⟩ := ((filing s now).writeSummary_keeps _).exec hwrite
  exact ⟨files, w₁, final, w₃.tree, hsurvey, hfinal, hsummary, hcourse, hsteady⟩

/-- Two real runs from one world that succeed, whatever their gates answer, report the same proposals
in the same order, and their records differ in the filing only. The amounts, the margin warnings and
the number of proposals are equal, and both runs write incidents for the same proposals, to the same
paths: those that both of them report. -/
theorem run_gates_choose_filing_only (hreal : s.mode = .real)
    (hrun : w.exec (run s (some g.review) now) = (.ok o, v))
    (hrun' : w.exec (run s (some g'.review) now) = (.ok o', v')) :
    List.Forall₂ Record.SameButFiling o.summary.decisions o'.summary.decisions ∧
    o'.summary.economics = o.summary.economics ∧
    o'.summary.marginFiles = o.summary.marginFiles ∧
    o'.summary.counts.total = o.summary.counts.total ∧
    ∃ (files : List ProposalFile) (w₁ : World) (incidents : List (Option Path)) (t t' : Tree),
      w.exec (survey s now) = (.ok files, w₁) ∧
      o.summary.decisions.map Record.incident = incidents.map (Option.map Path.display) ∧
      (filing s now).Course ((o.summary.decisions.map Record.decision).zip incidents) w₁.tree t ∧
      (filing s now).Course ((o'.summary.decisions.map Record.decision).zip incidents) w₁.tree t' ∧
      t.Steady {(filing s now).summaryPath.place} v.tree ∧
      t'.Steady {(filing s now).summaryPath.place} v'.tree := by
  obtain ⟨files, w₁, final, t, hsurvey, hfinal, hsummary, hcourse, hsteady⟩ :=
    run_ok_settled hreal hrun
  obtain ⟨files', w₁', final', t', hsurvey', hfinal', hsummary', hcourse', hsteady'⟩ :=
    run_ok_settled hreal hrun'
  cases hsurvey.symm.trans hsurvey'
  have hsame := hfinal.sameButAction hfinal' unreviewed_of_mem
  set f := filing s now
  have hrecords : List.Forall₂ Record.SameButFiling (final.map f.record) (final'.map f.record) := by
    rw [List.forall₂_map_left_iff, List.forall₂_map_right_iff]
    exact hsame.imp fun d d' h => h.record f
  have hincidents : final'.map f.incident? = final.map f.incident? :=
    map_eq_of_forall₂ (fun h => h.incident? f) hsame
  have hzip : ∀ ds : List Decision,
      (ds.map (Record.decision ∘ f.record)).zip (ds.map f.incident?)
        = ds.map fun d => (d, f.incident? d) := by
    intro ds
    rw [List.zip_map']
    rfl
  rw [hsummary, hsummary']
  refine ⟨hrecords, Summary.economicsOf_eq hrecords _, Summary.marginFilesOf_eq hrecords,
    hrecords.length_eq.symm, files, w₁, final.map f.incident?, t, t', hsurvey, ?_, ?_, ?_, hsteady,
    hsteady'⟩
  · rw [summaryOf, Summary.ofRecords, List.map_map, List.map_map]
    exact List.map_congr_left fun d _ => f.incident_record d
  · rw [summaryOf, Summary.ofRecords, List.map_map, hzip]
    exact hcourse
  · rw [summaryOf, Summary.ofRecords, List.map_map, ← hincidents, hzip]
    exact hcourse'

/-- One gate promotes the first of two proposals with reasons against them, another one lets both be
demoted; no more than that differs, and both runs report the same incidents. -/
theorem run_gates_choose_filing_only_promotesFirst :
    let w : World := { tree := Specimen.twoProposals }
    ∃ o v o' v', w.exec (run Specimen.settings (some promotesFirst.review) (.utc ⟨0, 0⟩)) = (.ok o, v) ∧
      w.exec (run Specimen.settings (some allowsAll.review) (.utc ⟨0, 0⟩)) = (.ok o', v') ∧
      o.summary.decisions.map (fun r => r.decision.action) = [.promote, .demote] ∧
      o'.summary.decisions.map (fun r => r.decision.action) = [.demote, .demote] ∧
      List.Forall₂ Record.SameButFiling o.summary.decisions o'.summary.decisions ∧
      o'.summary.economics = o.summary.economics ∧
      o'.summary.decisions.map Record.incident = o.summary.decisions.map Record.incident := by
  intro w
  have hseen : ((w.exec (run Specimen.settings (some promotesFirst.review) (.utc ⟨0, 0⟩))).1.toOption.map
      fun o => o.summary.decisions.map fun r => r.decision.action) = some [.promote, .demote] := by
    decide +kernel
  have hseen' : ((w.exec (run Specimen.settings (some allowsAll.review) (.utc ⟨0, 0⟩))).1.toOption.map
      fun o => o.summary.decisions.map fun r => r.decision.action) = some [.demote, .demote] := by
    decide +kernel
  obtain ⟨o, v, hrun, hseen⟩ := World.exists_of_seen hseen
  obtain ⟨o', v', hrun', hseen'⟩ := World.exists_of_seen hseen'
  obtain ⟨hrecords, heconomics, -⟩ := run_gates_choose_filing_only rfl hrun hrun'
  exact ⟨o, v, o', v', hrun, hrun', hseen, hseen', hrecords, heconomics,
    map_eq_of_forall₂ (fun h => h.incident) hrecords⟩

end Run

end ProposalReview
