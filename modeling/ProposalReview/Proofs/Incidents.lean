import Mathlib
import ProposalReview.Proofs.AuditTrail
import ProposalReview.Proofs.Movement
import ProposalReview.Proofs.Outcome
/-!
Which incidents a real run leaves.

A flagged decision that is carried out leaves its incident, and the decisions after it leave that
incident alone unless they write one to the same path. They do so exactly if they are flagged and the
names of the two proposals look alike when they are shown. Names that are UTF-8 look alike only if they
are equal; other names need not, and then the incident of the last proposal is all that is left.
-/

namespace ProposalReview

variable {f : Filing} {p : ProposalFile} {ps : List ProposalFile} {d : Decision} {ds : List Decision}
  {t t₁ t' : Tree} {w w₁ w₂ w' : World} {l : Location} {e : Entry}

/-! ### Names that look alike -/

section

variable {inbox : Path} {p' : ProposalFile} {n m : Name} {d' : Decision}

theorem Assigned.baseName?_source (h : Assigned inbox p n d) : d.source.baseName? = some n := by
  rw [h.about.source, Path.baseName?_child h.valid]

theorem Assigned.fileName (h : Assigned inbox p n d) : d.fileName = Text.decodeString n :=
  h.about.fileName h.valid h.proposal

theorem Assigned.place_incidentPath_inj (h : Assigned f.dirs.inbox p n d)
    (h' : Assigned f.dirs.inbox p' m d') :
    (f.incidentPath d).place = (f.incidentPath d').place ↔ d.fileName = d'.fileName := by
  rw [Filing.place_incidentPath_eq h.about h.valid h.proposal,
    Filing.place_incidentPath_eq h'.about h'.valid h'.proposal,
    h.about.incident_fileName h.valid h.proposal, h'.about.incident_fileName h'.valid h'.proposal,
    List.append_cancel_left_eq, List.singleton_inj]
  constructor
  · intro heq
    exact (String.append_right_inj _).mp (Text.encodeString_inj heq)
  · intro heq
    rw [heq]

/-- Two incidents have one path exactly if the names of their proposals look alike. -/
theorem Assigned.incidentPath_inj (h : Assigned f.dirs.inbox p n d)
    (h' : Assigned f.dirs.inbox p' m d') :
    f.incidentPath d = f.incidentPath d' ↔ d.fileName = d'.fileName := by
  constructor
  · intro heq
    exact (h.place_incidentPath_inj h').mp (congrArg Path.place heq)
  · intro heq
    rw [Filing.incidentPath, Filing.incidentPath, Incident.path, Incident.path,
      h.about.incident_fileName h.valid h.proposal, h'.about.incident_fileName h'.valid h'.proposal, heq]

end

namespace Assignment

variable {inbox : Path}

theorem of_mem (h : Assignment inbox ps ds) (hd : d ∈ ds) :
    ∃ p n, (p, d) ∈ ps.zip ds ∧ Assigned inbox p n d := by
  have hsnd := List.map_snd_zip h.1.length_eq.ge
  rw [← hsnd] at hd
  obtain ⟨⟨p, d⟩, hx, rfl⟩ := List.mem_map.mp hd
  obtain ⟨n, hn⟩ := h.assigned hx
  exact ⟨p, n, hx, hn⟩

/-- Decisions about different proposals have sources of different names. -/
theorem sources_nodup (h : Assignment inbox ps ds) : (ds.map fun d => d.source.baseName?).Nodup := by
  obtain ⟨hall, hnodup⟩ := h
  have hplaces : (ps.map fun p => p.path.place)
      = (ds.map fun d => d.source.baseName?).map fun n => inbox.place ++ n.toList := by
    clear hnodup
    induction hall with
    | nil => rfl
    | cons hn _ ih =>
      obtain ⟨n, hn⟩ := hn
      rw [List.map_cons, List.map_cons, List.map_cons, ih, hn.place_path, hn.baseName?_source]
      rfl
  rw [hplaces] at hnodup
  exact hnodup.of_map

/-- Decisions about names that are UTF-8 show different names. -/
theorem fileNames_ne (h : Assignment inbox ps ds) : ds.Pairwise fun d d' =>
    (∀ n, d.source.baseName? = some n → Text.IsUtf8 n) →
    (∀ n, d'.source.baseName? = some n → Text.IsUtf8 n) → d.fileName ≠ d'.fileName := by
  refine (List.pairwise_map.mp h.sources_nodup).imp_of_mem ?_
  intro d d' hd hd' hne hutf hutf' heq
  obtain ⟨p, n, -, hn⟩ := h.of_mem hd
  obtain ⟨q, m, -, hm⟩ := h.of_mem hd'
  rw [hn.baseName?_source] at hne hutf
  rw [hm.baseName?_source] at hne hutf'
  rw [hn.fileName, hm.fileName] at heq
  apply hne
  rw [← (hutf n rfl).encodeString, ← (hutf' m rfl).encodeString, heq]

end Assignment

/-! ### One decision -/

/-- Whether a decision's incident stands in a tree. -/
def Filing.Filed (f : Filing) (t : Tree) (d : Decision) : Prop :=
  ∃ time, t.entry? (f.incidentPath d).place
    = some (.file (Text.encodeString (Incident.text d f.now false)) time)

/-- What a tree looks like after a decision was carried out without an error. -/
structure Completed (f : Filing) (p : ProposalFile) (d : Decision) (t t' : Tree) : Prop where
  delivered : Delivered p.path.place (f.destination d).place (f.incidentPath d).place t t'
  filed : d.reasons ≠ [] → f.Filed t' d
  keeps : ∀ {l e}, l ≠ p.path.place → l ≠ (f.destination d).place →
    (d.reasons ≠ [] → l ≠ (f.incidentPath d).place) → t.entry? l = some e → t'.entry? l = some e

/-- Carrying out a decision that moves its file is moving the file and then filing the incident. -/
theorem Filing.apply_ok_cases (hmode : f.mode = .real) (hmoves : d.action ≠ .hold) {r : Record}
    (h : w.exec (f.apply d) = (.ok r, w')) : ∃ t, w.tree.rename d.sourcePath (f.destination d) = .ok t ∧
      World.exec { w with tree := t } (f.fileIncident d) = (.ok (), w') := by
  rw [apply, if_pos hmode, move, if_neg hmoves] at h
  obtain ⟨_, w₁, hmove, h⟩ := World.exec_ok_of_bind h
  obtain ⟨_, w₂, hfile, hlast⟩ := World.exec_ok_of_bind h
  cases hlast
  rcases World.moveFile_cases hmove with ⟨t, hmoved, -, rfl⟩ | ⟨cause, -, herr, -⟩
  · exact ⟨t, hmoved, hfile⟩
  · cases herr

theorem Assigned.apply_completed {n : Name} (h : Assigned f.dirs.inbox p n d) (hdirs : f.dirs.Distinct)
    (hmode : f.mode = .real) {r : Record} (hw : w.tree.WellFormed) (hl : w.tree.LinkFree)
    (hfile : w.tree.FileAt p.path.place) (hr : w.exec (f.apply d) = (.ok r, w')) :
    ∃ t, w' = { w with tree := t } ∧ Completed f p d w.tree t := by
  rcases h.apply_exec hdirs hmode hw hl hfile hr with ⟨-, e, herr⟩ | ⟨t, rfl, hd⟩
  · cases herr
  obtain ⟨t₁, hmoved, hincident⟩ := Filing.apply_ok_cases hmode h.about.moves hr
  refine ⟨t, rfl, hd, ?_, ?_⟩
  · intro hreasons
    -- the incident was the last thing to be written
    have hdry : f.mode.isDryRun = false := by rw [hmode, RunMode.isDryRun]
    rcases Filing.fileIncident_exec hreasons hincident with ⟨-, hcontent⟩ | ⟨-, cause, herr | herr⟩
    · rw [hdry] at hcontent
      exact hd.linkFree.entry?_of_content hcontent
    · cases herr
    · cases herr
  · intro l e hs hdest hi he
    by_cases hreasons : d.reasons = []
    · rw [Filing.fileIncident, if_pos (by simp [hreasons])] at hincident
      have hsource : d.sourcePath = p.path := by rw [h.about.sourcePath h.valid, h.path]
      have hsd := (h.inbox_apart hdirs n).1
      rw [← h.place_path] at hsd
      rw [hsource] at hmoved
      have hmoved := Tree.rename_moved hw hl hfile hsd hmoved
      cases hincident
      rw [hmoved.entry?, if_neg hdest, if_neg hs, he]
    · exact hd.keeps hs hdest (hi hreasons) he

/-! ### All decisions -/

/-- Decisions about some proposals have been carried out without an error. -/
inductive Carried (f : Filing) : List ProposalFile → List Decision → Tree → Tree → Prop
  | done {t : Tree} : Carried f [] [] t t
  | next {p : ProposalFile} {ps : List ProposalFile} {d : Decision} {ds : List Decision}
      {t t₁ t' : Tree} (completed : Completed f p d t t₁) (rest : Carried f ps ds t₁ t') :
      Carried f (p :: ps) (d :: ds) t t'

theorem Filing.applyAll_carried (hdirs : f.dirs.Distinct) (hmode : f.mode = .real)
    {rs : List Record} (ha : Assignment f.dirs.inbox ps ds) (hw : w.tree.WellFormed)
    (hl : w.tree.LinkFree) (hfiles : ∀ p ∈ ps, w.tree.FileAt p.path.place)
    (h : w.exec (f.applyAll ds) = (.ok rs, w')) :
    ∃ t, w' = { w with tree := t } ∧ Carried f ps ds w.tree t := by
  induction ds generalizing ps w w' rs with
  | nil =>
    cases h
    cases ha.1
    exact ⟨w.tree, rfl, .done⟩
  | cons d ds ih =>
    cases ps with
    | nil => cases ha.1
    | cons p ps =>
      obtain ⟨⟨n, hn⟩, -⟩ := ha.head
      obtain ⟨r, w₁, happly, h⟩ := World.exec_ok_of_bind h
      obtain ⟨rs', w₂, hrest, hlast⟩ := World.exec_ok_of_bind h
      obtain ⟨t, rfl, hd⟩ := hn.apply_completed hdirs hmode hw hl (hfiles p List.mem_cons_self) happly
      obtain ⟨t', rfl, hcarried⟩ := ih ha.tail hd.delivered.wellFormed hd.delivered.linkFree
        (ha.fileAt_tail hdirs hd.delivered hfiles) hrest
      cases hlast
      exact ⟨t', rfl, .next hd hcarried⟩

namespace Carried

theorem progress (h : Carried f ps ds t t') : Progress f ps.length ps ds t t' := by
  induction h with
  | done => exact .start
  | next completed _ ih => exact .next completed.delivered ih

/-- What no decision touches stays; a decision without reasons writes no incident. -/
theorem keeps (h : Carried f ps ds t t') (hapart : ∀ x ∈ ps.zip ds, l ≠ x.1.path.place ∧
    l ≠ (f.destination x.2).place ∧ (x.2.reasons ≠ [] → l ≠ (f.incidentPath x.2).place))
    (he : t.entry? l = some e) : t'.entry? l = some e := by
  induction h with
  | done => exact he
  | next completed _ ih =>
    rw [List.zip_cons_cons, List.forall_mem_cons] at hapart
    obtain ⟨⟨hs, hd, hi⟩, hrest⟩ := hapart
    exact ih hrest (completed.keeps hs hd hi he)

end Carried

/-- Nothing in the directory of incidents is where a decision finds its file or takes it. -/
theorem Assigned.incidents_apart {n : Name} (h : Assigned f.dirs.inbox p n d) (hdirs : f.dirs.Distinct)
    (m : Name) : f.dirs.incidents.place ++ [m] ≠ p.path.place ∧
      f.dirs.incidents.place ++ [m] ≠ (f.destination d).place := by
  rw [h.place_path, h.place_destination]
  exact ⟨Path.place_append_ne hdirs.inbox.1.symm m n,
    Path.place_append_ne (hdirs.target d.action).2.1.symm m n⟩

/-- Of the flagged decisions about names that look alike, the last one's incident stands at the end. -/
theorem Carried.filed (h : Carried f ps ds t t') (hdirs : f.dirs.Distinct)
    (ha : Assignment f.dirs.inbox ps ds) {as bs : List Decision} (hds : ds = as ++ d :: bs)
    (hreasons : d.reasons ≠ [])
    (hlast : ∀ d' ∈ bs, d'.reasons ≠ [] → d'.fileName ≠ d.fileName) : f.Filed t' d := by
  induction h generalizing as with
  | done => simp at hds
  | @next p ps d₀ ds t t₁ t' completed rest ih =>
    cases as with
    | nil =>
      obtain ⟨rfl, rfl⟩ := List.cons.inj hds
      obtain ⟨⟨n, hn⟩, -⟩ := ha.head
      obtain ⟨time, htext⟩ := completed.filed hreasons
      obtain ⟨i, hi⟩ := hn.place_incidentPath
      -- a later decision comes near this incident only by writing one of the same path
      refine ⟨time, rest.keeps ?_ htext⟩
      intro x hx
      obtain ⟨m, hm⟩ := ha.tail.assigned hx
      obtain ⟨hsource, hdest⟩ := hm.incidents_apart hdirs i
      rw [← hi] at hsource hdest
      refine ⟨hsource, hdest, ?_⟩
      intro hflagged heq
      have hnames := (hn.place_incidentPath_inj hm).mp heq
      exact hlast x.2 (List.of_mem_zip hx).2 hflagged hnames.symm
    | cons a as =>
      obtain ⟨rfl, rfl⟩ := List.cons.inj hds
      exact ih ha.tail rfl

/-- If all flagged decisions are about names that are UTF-8, each of them has its own incident. -/
theorem Carried.filed_each (h : Carried f ps ds t t') (hdirs : f.dirs.Distinct)
    (ha : Assignment f.dirs.inbox ps ds)
    (hutf : ∀ d ∈ ds, d.reasons ≠ [] → ∀ n, d.source.baseName? = some n → Text.IsUtf8 n)
    (hd : d ∈ ds) (hreasons : d.reasons ≠ []) : f.Filed t' d := by
  obtain ⟨as, bs, rfl⟩ := List.append_of_mem hd
  refine h.filed hdirs ha rfl hreasons ?_
  intro d' hd' hflagged
  have hne := (List.pairwise_cons.mp (List.pairwise_append.mp ha.fileNames_ne).2.1).1 d' hd'
  exact (hne (hutf d hd hreasons) (hutf d' (by simp [hd']) hflagged)).symm

/-! ### Runs -/

namespace Run

variable {s : Settings} {now : RunClock} {gate : Option PolicyGate} {files : List ProposalFile}
  {o : Outcome}

/-- A real run that succeeds carries out every reviewed decision, and no incident is lost when it then
writes its summary. -/
theorem carryOut_carried (hreal : s.mode = .real) (hdirs : s.dirs.Distinct) (hw : w.tree.WellFormed)
    (hl : w.tree.LinkFree) (hsurvey : w.exec (survey s now) = (.ok files, w₁))
    (hreview : w₁.exec (reviewed s (gate.map PolicyGate.review) (files.map (decideOn s.gates now)))
      = (.ok ds, w₂)) (hcarry : w₂.exec (carryOut s now ds) = (.ok o, w')) :
    Reached s now files ds files.length w₁.tree w'.tree ∧ ∃ t, Carried (filing s now) files ds w₁.tree t ∧
      ∀ d ∈ ds, (filing s now).Filed t d → (filing s now).Filed w'.tree d := by
  obtain ⟨-, ⟨t₁, hext, rfl⟩, ns, hscan⟩ := survey_ok hw hsurvey
  have hw₁ := hext.wellFormed hw
  have hl₁ := hext.linkFree hl
  obtain ⟨htree, hassign⟩ := reviewed_exec hreal hscan hreview
  have ha := hassign ds rfl
  have hstands := hscan.stands hl₁
  obtain ⟨-, w₃, happly, hwrite⟩ := carryOut_ok hcarry
  have hfiles : ∀ p ∈ files, w₂.tree.FileAt p.path.place := by
    rw [htree]
    exact fun p hp => (hstands p hp).imp fun _ he => ⟨_, he⟩
  obtain ⟨t, rfl, hcarried⟩ := Filing.applyAll_carried hdirs hreal ha (htree ▸ hw₁) (htree ▸ hl₁)
    hfiles happly
  rw [htree] at hcarried
  obtain ⟨t', hsteady, rfl⟩ := ((filing s now).writeSummary_keeps _).exec hwrite
  refine ⟨⟨hdirs, hw₁, hl₁, ha, hstands, t, hcarried.progress, hsteady⟩, t, hcarried, ?_⟩
  rintro d hd ⟨time, htext⟩
  have hlt := (hcarried.progress.sound hw₁ hl₁).2
  obtain ⟨p, n, -, hn⟩ := ha.of_mem hd
  obtain ⟨i, hi⟩ := Assigned.place_incidentPath (f := filing s now) hn
  have hapart : ((filing s now).incidentPath d).place
      ∉ ({(filing s now).summaryPath.place} : Set Location) := by
    rw [Set.mem_singleton_iff, hi, Filing.place_summaryPath_eq]
    exact Path.place_append_ne hdirs.incidents_log i _
  exact ⟨time, (hsteady.grows hlt).keeps hapart htext⟩

/-- Which incidents a real run that succeeds leaves. Incidents have one path exactly if the proposals'
names look alike, and of these the last one stands. So every flagged proposal has its own incident if
the names of the flagged proposals are UTF-8. -/
theorem run_files_incidents (hreal : s.mode = .real) (hw : w.tree.WellFormed)
    (hrun : w.exec (run s (gate.map PolicyGate.review) now) = (.ok o, w')) :
    let ds := o.summary.decisions.map Record.decision
    let f := filing s now
    let allUtf8 := ∀ d ∈ ds, d.reasons ≠ [] → ∀ n, d.source.baseName? = some n → Text.IsUtf8 n
    (∀ d ∈ ds, d.source.baseName?.map Text.decodeString = some d.fileName) ∧
    (∀ d ∈ ds, ∀ d' ∈ ds, f.incidentPath d = f.incidentPath d' ↔ d.fileName = d'.fileName) ∧
    (allUtf8 → ds.Pairwise fun d d' => d.reasons ≠ [] → d'.reasons ≠ [] →
      f.incidentPath d ≠ f.incidentPath d') ∧
    (s.dirs.Distinct → w.tree.LinkFree →
      (∀ as d bs, ds = as ++ d :: bs → d.reasons ≠ [] →
        (∀ d' ∈ bs, d'.reasons ≠ [] → d'.fileName ≠ d.fileName) → f.Filed w'.tree d) ∧
      (allUtf8 → ∀ d ∈ ds, d.reasons ≠ [] → f.Filed w'.tree d)) := by
  obtain ⟨files, w₁, final, w₂, hsurvey, hreview, hcarry⟩ := run_ok hrun
  obtain ⟨-, -, ns, hscan⟩ := survey_ok hw hsurvey
  have ha := (reviewed_exec hreal hscan hreview).2 final rfl
  have hds : o.summary.decisions.map Record.decision = final := by
    rw [decisions_of_carryOut hcarry, List.map_map]
    exact List.map_id final
  intro ds f allUtf8
  have hpaths : ∀ d ∈ final, ∀ d' ∈ final,
      f.incidentPath d = f.incidentPath d' ↔ d.fileName = d'.fileName := by
    intro d hd d' hd'
    obtain ⟨p, n, -, hn⟩ := ha.of_mem hd
    obtain ⟨q, m, -, hm⟩ := ha.of_mem hd'
    exact Assigned.incidentPath_inj (f := f) hn hm
  simp only [allUtf8, ds, hds]
  refine ⟨?_, hpaths, ?_, ?_⟩
  · intro d hd
    obtain ⟨p, n, -, hn⟩ := ha.of_mem hd
    simp [hn.baseName?_source, hn.fileName]
  · intro hutf
    refine ha.fileNames_ne.imp_of_mem ?_
    intro d d' hd hd' hne hreasons hreasons' heq
    exact hne (hutf d hd hreasons) (hutf d' hd' hreasons') ((hpaths d hd d' hd').mp heq)
  · intro hdirs hl
    obtain ⟨-, t, hcarried, hstill⟩ := carryOut_carried hreal hdirs hw hl hsurvey hreview hcarry
    constructor
    · intro as d bs hsplit hreasons hlast
      exact hstill d (by simp [hsplit]) (hcarried.filed hdirs ha hsplit hreasons hlast)
    · intro hutf d hd hreasons
      exact hstill d hd (hcarried.filed_each hdirs ha hutf hd hreasons)

/-- Both proposals are flagged, and each of them has its own incident, although one is promoted. -/
theorem run_files_incidents_promotesFirst :
    let w : World := { tree := Specimen.twoProposals }
    let f := filing Specimen.settings (.utc ⟨0, 0⟩)
    ∃ o w', w.exec (run Specimen.settings ((some promotesFirst).map PolicyGate.review) (.utc ⟨0, 0⟩))
        = (.ok o, w') ∧
      ∃ d d', o.summary.decisions.map Record.decision = [d, d'] ∧
        d.source.baseName? = some Specimen.name ∧ d'.source.baseName? = some Specimen.otherName ∧
        f.incidentPath d ≠ f.incidentPath d' ∧ f.Filed w'.tree d ∧ f.Filed w'.tree d' := by
  intro w f
  have hseen : ((w.exec (run Specimen.settings ((some promotesFirst).map PolicyGate.review)
      (.utc ⟨0, 0⟩))).1.toOption.map fun o => (o.summary.decisions.map Record.decision).map fun d =>
        (d.source.baseName?, decide (d.reasons ≠ [])))
      = some [(some Specimen.name, true), (some Specimen.otherName, true)] := by decide +kernel
  obtain ⟨o, w', hr, hseen⟩ := World.exists_of_seen hseen
  obtain ⟨-, -, hpaths, hfiled⟩ := run_files_incidents rfl Specimen.twoProposals_wellFormed hr
  have hfiled := (hfiled Specimen.dirs_distinct Specimen.twoProposals_linkFree).2
  refine ⟨o, w', hr, ?_⟩
  generalize o.summary.decisions.map Record.decision = ds at hseen hpaths hfiled
  obtain ⟨d, ds, rfl, hd, hseen⟩ := List.map_eq_cons_iff.mp hseen
  obtain ⟨d', ds, rfl, hd', hseen⟩ := List.map_eq_cons_iff.mp hseen
  obtain rfl := List.map_eq_nil_iff.mp hseen
  obtain ⟨hname, hreasons⟩ := Prod.mk.inj hd
  obtain ⟨hname', hreasons'⟩ := Prod.mk.inj hd'
  have hnames : ∀ x ∈ [d, d'], x.reasons ≠ [] → ∀ n, x.source.baseName? = some n → Text.IsUtf8 n := by
    simp only [List.forall_mem_cons, List.not_mem_nil, false_imp_iff, implies_true, and_true, hname,
      hname', Option.some_inj]
    refine ⟨?_, ?_⟩
    · rintro - n rfl
      decide
    · rintro - n rfl
      decide
  have hpaths := hpaths hnames
  have hfiled := hfiled hnames
  have hreasons := of_decide_eq_true hreasons
  have hreasons' := of_decide_eq_true hreasons'
  refine ⟨d, d', rfl, hname, hname', ?_, hfiled d (by simp) hreasons, hfiled d' (by simp) hreasons'⟩
  exact (List.pairwise_cons.mp hpaths).1 d' (by simp) hreasons hreasons'

/-- A tree with two proposals, `a\xfe.md` and `a\xff.md`, whose names look alike when they are shown. -/
def lookalikes : Tree :=
  ⟨[([[0x69]], .directory), ([[0x69], [0x61, 0xfe, 0x2e, 0x6d, 0x64]], .file [1] ⟨0, 0⟩),
    ([[0x69], [0x61, 0xff, 0x2e, 0x6d, 0x64]], .file [2] ⟨0, 0⟩)]⟩

theorem lookalikes_wellFormed : lookalikes.WellFormed := .of_entries (by decide) (by decide)

theorem lookalikes_linkFree : lookalikes.LinkFree := .of_entries (by decide)

/-- Flagged proposals need not have incidents of their own: here two names that are not UTF-8 look
alike. -/
theorem incidents_of_lookalikes_collide :
    ¬ ∀ (s : Settings) (gate : Option PolicyGate) (now : RunClock) (w w' : World) (o : Outcome),
      s.mode = .real → s.dirs.Distinct → w.tree.WellFormed → w.tree.LinkFree →
      w.exec (run s (gate.map PolicyGate.review) now) = (.ok o, w') →
      let ds := o.summary.decisions.map Record.decision
      let f := filing s now
      ds.Pairwise (fun d d' => d.reasons ≠ [] → d'.reasons ≠ [] →
        f.incidentPath d ≠ f.incidentPath d') ∧
      ∀ d ∈ ds, d.reasons ≠ [] → f.Filed w'.tree d := by
  intro h
  let w : World := { tree := lookalikes }
  let f := filing Specimen.settings (.utc ⟨0, 0⟩)
  have hseen : ((w.exec (run Specimen.settings ((some promotesFirst).map PolicyGate.review)
      (.utc ⟨0, 0⟩))).1.toOption.map fun o => decide ((o.summary.decisions.map Record.decision).Pairwise
        fun d d' => d.reasons ≠ [] → d'.reasons ≠ [] → f.incidentPath d ≠ f.incidentPath d'))
      = some false := by decide +kernel
  obtain ⟨o, w', hr, hseen⟩ := World.exists_of_seen hseen
  obtain ⟨hpaths, -⟩ := h Specimen.settings (some promotesFirst) (.utc ⟨0, 0⟩) w w' o rfl
    Specimen.dirs_distinct lookalikes_wellFormed lookalikes_linkFree hr
  exact of_decide_eq_false hseen hpaths

end Run

end ProposalReview
