import Mathlib
import ProposalReview.Proofs.Disclosure
import ProposalReview.Proofs.DryRun
import ProposalReview.Proofs.Filing.Readback
import ProposalReview.Proofs.Filing.Standing
import ProposalReview.Proofs.Influence
/-!
Dry runs can be repeated.

All that a dry run changes are directories and samples, which the next one finds in place, and its
summary, which is no proposal. So the next one scans the same proposals, and only their ages may differ:
with them the first reason against a proposal, and what follows from it.
-/

namespace ProposalReview

/-! ### What the age of a proposal decides -/

namespace Candidate

variable {s : GateSettings} {c : Candidate} {hours : Float}

/-- The same proposal at another age. -/
def aged (c : Candidate) (hours : Float) : Candidate := { c with ageHours := hours }

/-- The reasons against a proposal other than its age. -/
def otherReasons (s : GateSettings) (c : Candidate) : List String :=
  (Gate.all.tail.filter (Gate.fails s c)).map (Gate.code s.toThresholds)

/-- The age gives the first reason, or none. -/
theorem reasons_eq (s : GateSettings) (c : Candidate) : c.reasons s
    = if Gate.fails s c .sla then slaCode s.slaHours :: c.otherReasons s else c.otherReasons s := by
  have hall : Gate.all = .sla :: Gate.all.tail := rfl
  rw [reasons, hall, List.filter_cons]
  split_ifs
  · rfl
  · rfl

theorem slaCode_not_mem_otherReasons : slaCode s.slaHours ∉ c.otherReasons s := by
  intro h
  obtain ⟨g, hg, hcode⟩ := List.mem_map.mp h
  obtain rfl : g = .sla := Gate.code_injective _ hcode
  exact absurd (List.mem_filter.mp hg).1 (by decide)

theorem otherReasons_aged : (c.aged hours).otherReasons s = c.otherReasons s := by
  have hfails : ∀ g ∈ Gate.all.tail, Gate.fails s (c.aged hours) g = Gate.fails s c g := by
    intro g hg
    cases g with
    | sla => exact absurd hg (by decide)
    | _ => rfl
  rw [otherReasons, otherReasons, List.filter_congr hfails]

end Candidate

/-- Whether two decisions agree but for the age of the proposal, which may have given either of them a
first reason of some code. If it gave both or neither of them that reason, they take the same action. -/
structure Decision.SameButAge (code : String) (d d' : Decision) : Prop where
  file : d'.file = d.file
  source : d'.source = d.source
  kpi : d'.kpi = d.kpi
  warnings : d'.warnings = d.warnings
  reasons : ∃ rest, code ∉ rest ∧ (d.reasons = rest ∨ d.reasons = code :: rest) ∧
    (d'.reasons = rest ∨ d'.reasons = code :: rest)
  action : (code ∈ d'.reasons ↔ code ∈ d.reasons) → d'.reasons = d.reasons ∧ d'.action = d.action

/-- Whether two records agree but for the age of the proposal. -/
structure Record.SameButAge (code : String) (r r' : Record) : Prop where
  decision : r.decision.SameButAge code r'.decision
  filing : (code ∈ r'.decision.reasons ↔ code ∈ r.decision.reasons) →
    r'.destination = r.destination ∧ r'.incident.isSome = r.incident.isSome

/-- The gates decide alike about a proposal at two ages, but for its age. -/
theorem Candidate.decide_aged (s : GateSettings) (path : Path) (c : Candidate) (hours : Float) :
    (c.decide s path).SameButAge (slaCode s.slaHours) ((c.aged hours).decide s path) where
  file := rfl
  source := rfl
  kpi := rfl
  warnings := rfl
  reasons := by
    refine ⟨c.otherReasons s, slaCode_not_mem_otherReasons, ?_, ?_⟩
    · simp only [Candidate.decide, reasons_eq]
      split_ifs <;> simp
    · simp only [Candidate.decide, reasons_eq, otherReasons_aged]
      split_ifs <;> simp
  action := by
    intro h
    have hfails : Gate.fails s (c.aged hours) .sla = Gate.fails s c .sla := by
      rw [Bool.eq_iff_iff, ← mem_reasons, ← mem_reasons]
      exact h
    have hreasons : (c.aged hours).reasons s = c.reasons s := by
      rw [reasons_eq, reasons_eq, otherReasons_aged, hfails]
    simp only [Candidate.decide, hreasons, and_self]

theorem Decision.SameButAge.record {code : String} {d d' : Decision} (h : d.SameButAge code d')
    {f f' : Filing} (hdirs : f'.dirs = f.dirs) :
    (f.record d).SameButAge code (f'.record d') where
  decision := h
  filing := by
    intro hcode
    obtain ⟨hreasons, haction⟩ := h.action hcode
    have hdest : f'.destination d' = f.destination d := by
      simp only [Filing.destination, Filing.nameOf, Decision.sourcePath, Decision.fileName, hdirs,
        haction, h.source, h.file]
    refine ⟨congrArg Path.display hdest, ?_⟩
    simp only [Filing.record, hreasons]
    split_ifs
    · simp
    · simp

/-! ### Scanning again -/

namespace Inbox

variable {t t' : Tree} {w w' v v' : World} {inbox : Path} {l : Location} {n : Name} {bytes : Bytes}
  {time : Instant} {fs fs' : List ProposalFile}

theorem getLast?_proposal (h : isProposalName n) : n.getLast? = some 0x64 := by
  obtain ⟨-, -, -, hn⟩ := Name.split?_eq_some.mp (split?_proposal h)
  rw [hn, List.getLast?_append]
  rfl

/-- A summary's name is not that of a proposal. -/
theorem summary_ne_proposal (h : isProposalName n) (stem : String) :
    n ≠ Text.encodeString (stem ++ ".json") := by
  rintro rfl
  have hlast := getLast?_proposal h
  have hjson : (Text.encodeString ".json").getLast? = some 0x6e := by decide
  rw [Text.encodeString_append, List.getLast?_append, hjson] at hlast
  cases hlast

/-- A file that two trees without links may differ in is none of the files that an inbox holds, if it
has another place. -/
theorem Holds.agree (h : Holds t inbox n bytes time) (hagree : Tree.AgreeBut l t t')
    (hw : t.WellFormed) (hw' : t'.WellFormed) (hf : t.LinkFree) (hl : l ≠ inbox.place ++ [n]) :
    Holds t' inbox n bytes time := by
  obtain ⟨⟨listed, hlisted, hn⟩, hfind⟩ := h
  obtain ⟨e, he⟩ := (mem_listed_iff hw hf hlisted).mp hn
  obtain ⟨m, hm, hdir, rfl⟩ := names_ok hlisted
  obtain rfl := hf.locate hm
  refine ⟨⟨t'.namesIn inbox.place, ?_, ?_⟩, ?_⟩
  · rw [Tree.names, hagree.locate hm]
    simp only [bind, Except.bind, hagree.directory hdir]
    rfl
  · refine mem_namesIn.mpr ⟨e, (hw'.mem_entries (by simp)).mpr ?_⟩
    rw [hagree.elsewhere _ hl.symm, he]
  · refine hagree.find ?_ hfind
    intro k hk
    rw [hf.locate hk, Path.place_child (hw.valid he)]
    exact hl.symm

/-- Files that two inboxes at one path hold alike are read alike. -/
theorem reads_congr {listed ns : List Name} (hlisted : t.names inbox = .ok listed)
    (hns : ∀ n ∈ ns, n ∈ listed) (hsame : SameProposals t inbox t' inbox)
    (h : List.Forall₂ (Read t inbox) ns fs) (h' : List.Forall₂ (Read t' inbox) ns fs') : fs' = fs := by
  induction h generalizing fs' with
  | nil =>
    cases h'
    rfl
  | @cons n f ns fs hread _ ih =>
    obtain ⟨hn, hns⟩ := List.forall_mem_cons.mp hns
    cases h' with
    | @cons _ f' _ _ hread' hrest' =>
      obtain ⟨htime, htext⟩ := hread.agree hread' hlisted hn hsame
      have hpath : f'.path = f.path := hread'.path.trans hread.path.symm
      have hname : f'.name = f.name := hread'.name.trans hread.name.symm
      have hf : f' = f := by
        cases f
        cases f'
        simp_all
      rw [hf, ih hns hrest']

/-- Two scans of inboxes at one path that hold the same proposals give the same. -/
theorem scan_congr (hw : w.tree.WellFormed) (hv : v.tree.WellFormed)
    (hsame : SameProposals w.tree inbox v.tree inbox) (h : w.exec (scan inbox) = (.ok fs, w'))
    (h' : v.exec (scan inbox) = (.ok fs', v')) : fs' = fs := by
  obtain ⟨-, listed, hlisted, hreads⟩ := scan_parts h
  obtain ⟨-, listed', hlisted', hreads'⟩ := scan_parts h'
  rw [← readNames_congr hw hv hlisted hlisted' hsame] at hreads'
  exact reads_congr hlisted (fun n hn => (mem_readNames.mp hn).1) hsame hreads hreads'

end Inbox

/-! ### Running again -/

namespace Run

variable {s : Settings} {now now' : RunClock} {w w' v v' : World} {o o' : Outcome}
  {files : List ProposalFile}

/-- What a dry run that succeeds has done: it has set up, scanned the inbox, and written its summary. -/
structure Rehearsed (s : Settings) (now : RunClock) (files : List ProposalFile) (t : Tree) (w : World)
    (o : Outcome) (w' : World) : Prop where
  surveyed : ∃ w₁ w₂, w.exec (setUp s now) = (.ok (), w₁) ∧ w₁.tree = t ∧
    w₁.exec (Inbox.scan s.dirs.inbox) = (.ok files, w₂)
  wellFormed : t.WellFormed
  linkFree : t.LinkFree
  ready : s.Ready t
  summary : o.summary = summaryOf s now (files.map (decideOn s.gates now))
  path : o.summaryPath = (filing s now).summaryPath
  written : t.write o.summaryPath (Text.encodeString o.summary.text) w.now = .ok w'.tree

theorem dryRun_rehearsed (hdry : s.mode = .dryRun) (hw : w.tree.WellFormed) (hl : w.tree.LinkFree)
    {gate : Option AnyGate} (h : w.exec (run s gate now) = (.ok o, w')) :
    ∃ files t, Rehearsed s now files t w o w' := by
  obtain ⟨files, w₁, ds, w₂, hsurvey, hreview, hcarry⟩ := run_ok h
  rw [reviewed_dryRun hdry] at hreview
  cases hreview
  obtain ⟨v, hset, hscan⟩ := survey_parts hsurvey
  obtain ⟨rfl, -⟩ := Inbox.scan_parts hscan
  have hready := setUp_ready hw hl hset
  obtain ⟨t, hext, rfl⟩ := (setUp_keeps s now).exec hset
  obtain ⟨hsummary, w₃, happly, hwrite⟩ := carryOut_ok hcarry
  have hmode : (filing s now).mode = .dryRun := hdry
  rw [Filing.applyAll_dryRun hmode] at happly
  cases happly
  obtain ⟨hpath, hwritten⟩ := writeSummary_settled (hext.linkFree hl) hready hwrite
  exact ⟨files, t, ⟨_, _, hset, rfl, hscan⟩, hext.wellFormed hw, hext.linkFree hl, hready, hsummary,
    hpath, hwritten⟩

namespace Rehearsed

variable {t : Tree}

/-- What stands where after a dry run: its summary, and what was set up. -/
theorem entry? (h : Rehearsed s now files t w o w') (l : Location) :
    w'.tree.entry? l = if l = o.summaryPath.place
      then some (.file (Text.encodeString o.summary.text) w.now) else t.entry? l :=
  (h.linkFree.entry?_write h.written).2 l

/-- Writing the summary has changed one file. -/
theorem agreeBut (h : Rehearsed s now files t w o w') :
    Tree.AgreeBut o.summaryPath.place t w'.tree := by
  refine ⟨?_, Or.inr ⟨_, _, (h.entry? _).trans (if_pos rfl)⟩, fun m hm => ?_⟩
  · have hdir := (h.linkFree.entry?_write h.written).1
    cases he : t.entry? o.summaryPath.place with
    | none => exact Or.inl he
    | some e =>
      cases e with
      | file bytes time => exact Or.inr ⟨bytes, time, he⟩
      | directory => exact absurd he hdir
      | link target => exact absurd he (h.linkFree _ target)
  · rw [h.entry?, if_neg hm]

/-- The summary is no proposal. -/
theorem place_ne (h : Rehearsed s now files t w o w') {n : Name} (hn : Inbox.isProposalName n) :
    o.summaryPath.place ≠ s.dirs.inbox.place ++ [n] := by
  rw [h.path, Filing.place_summaryPath_eq]
  intro heq
  obtain ⟨-, hname⟩ := List.append_inj' heq rfl
  exact Inbox.summary_ne_proposal hn _ (List.singleton_injective hname).symm

/-- A dry run that follows finds everything set up, and scans the same proposals. -/
theorem again (h : Rehearsed s now files t w o w') {t' : Tree} {files' : List ProposalFile}
    (htree : v.tree = w'.tree) (h' : Rehearsed s now' files' t' v o' v') :
    t' = w'.tree ∧ files' = files := by
  obtain ⟨w₁, w₂, -, rfl, hscan⟩ := h.surveyed
  obtain ⟨v₁, v₂, hset, rfl, hscan'⟩ := h'.surveyed
  have hw := (Tree.write_steady h.written).wellFormed h.wellFormed
  have hl := (Tree.write_steady h.written).linkFree h.linkFree
  have hready : s.Ready w'.tree := by
    refine h.ready.mono (fun l => h.agreeBut.directory) fun l hl => ?_
    rw [h.entry?]
    split_ifs
    · simp
    · exact hl
  have hsettled : v₁.tree = w'.tree := by
    obtain ⟨t, hsame, rfl⟩ := (setUp_settled s now').exec hset
    rw [hsame (htree ▸ hl) (htree ▸ hready), htree]
  refine ⟨hsettled, ?_⟩
  -- the trees differ in the summary only, which is no proposal
  have hsame : Inbox.SameProposals w₁.tree s.dirs.inbox v₁.tree s.dirs.inbox := by
    rw [hsettled]
    intro n bytes time hn
    exact ⟨fun hold => hold.agree h.agreeBut h.wellFormed hw h.linkFree (h.place_ne hn),
      fun hold => hold.agree h.agreeBut.symm hw h.wellFormed hl (h.place_ne hn)⟩
  exact Inbox.scan_congr h.wellFormed h'.wellFormed hsame hscan hscan'

end Rehearsed

/-- A dry run and one that follows it, at any two times and whatever gates they are given, list the same
proposals in the same order, and their records agree but for the ages of the proposals. The amounts and
the margin warnings are equal. If both run at the same time, their summaries are equal, and the second
one leaves everything as the first one left it: it only writes the same summary again. -/
theorem dry_runs_repeat (hdry : s.mode = .dryRun) (hw : w.tree.WellFormed) (hl : w.tree.LinkFree)
    {gate gate' : Option AnyGate} (hrun : w.exec (run s gate now) = (.ok o, w'))
    (htree : v.tree = w'.tree) (hrun' : v.exec (run s gate' now') = (.ok o', v')) :
    List.Forall₂ (Record.SameButAge (slaCode s.gates.slaHours)) o.summary.decisions
      o'.summary.decisions ∧
    o'.summary.economics = o.summary.economics ∧
    o'.summary.marginFiles = o.summary.marginFiles ∧
    (now' = now → o'.summary = o.summary ∧ o'.summaryPath = o.summaryPath ∧
      ∀ l, v'.tree.entry? l = w'.tree.entry? l ∨ ∃ bytes, l = o.summaryPath.place ∧
        w'.tree.entry? l = some (.file bytes w.now) ∧ v'.tree.entry? l = some (.file bytes v.now)) := by
  obtain ⟨files, t, h⟩ := dryRun_rehearsed hdry hw hl hrun
  have hw' := (Tree.write_steady h.written).wellFormed h.wellFormed
  have hl' := (Tree.write_steady h.written).linkFree h.linkFree
  obtain ⟨files', t', h'⟩ := dryRun_rehearsed hdry (htree ▸ hw') (htree ▸ hl') hrun'
  obtain ⟨rfl, rfl⟩ := h.again htree h'
  have hrecords : List.Forall₂ (Record.SameButAge (slaCode s.gates.slaHours)) o.summary.decisions
      o'.summary.decisions := by
    rw [h.summary, h'.summary]
    simp only [summaryOf, Summary.ofRecords, List.map_map, List.forall₂_map_left_iff,
      List.forall₂_map_right_iff, List.forall₂_same]
    intro f _
    exact (Candidate.decide_aged s.gates f.path _ (now'.hoursSince f.modified)).record rfl
  refine ⟨hrecords, ?_, ?_, ?_⟩
  · rw [h.summary, h'.summary] at hrecords ⊢
    exact Summary.economicsOf_congr (map_eq_of_forall₂ (fun hr => hr.decision.kpi) hrecords) _
  · rw [h.summary, h'.summary] at hrecords ⊢
    refine Summary.marginFilesOf_congr (map_eq_of_forall₂ (fun hr => ?_) hrecords)
    simp only [Summary.marginShown, Decision.hasWarning, Decision.fileName, hr.decision.warnings,
      hr.decision.file]
  · rintro rfl
    have hsummary : o'.summary = o.summary := by rw [h.summary, h'.summary]
    have hpath : o'.summaryPath = o.summaryPath := by rw [h.path, h'.path]
    refine ⟨hsummary, hpath, fun l => ?_⟩
    rw [h'.entry?, hpath, hsummary]
    by_cases hl : l = o.summaryPath.place
    · rw [if_pos hl]
      exact Or.inr ⟨_, hl, by rw [h.entry?, if_pos hl], rfl⟩
    · rw [if_neg hl]
      exact Or.inl rfl

/-- Two proposals are listed alike by a dry run and by another one a day and some hours later, for which
they are too old. -/
theorem dry_runs_repeat_specimen :
    let s : Settings := { Specimen.settings with mode := .dryRun }
    let w : World := { tree := Specimen.twoProposals }
    s.mode = .dryRun ∧ w.tree.WellFormed ∧ w.tree.LinkFree ∧
      ∃ o w' o' v', w.exec (run s none (.utc ⟨0, 0⟩)) = (.ok o, w') ∧
        World.exec { tree := w'.tree } (run s none (.utc ⟨100000, 0⟩)) = (.ok o', v') ∧
        o.summary.decisions.map (·.decision.reasons.length) = [8, 8] ∧
        o'.summary.decisions.map (·.decision.reasons.length) = [9, 9] ∧
        List.Forall₂ (Record.SameButAge (slaCode s.gates.slaHours)) o.summary.decisions
          o'.summary.decisions ∧
        o'.summary.economics = o.summary.economics := by
  intro s w
  have hdry : s.mode = .dryRun := rfl
  have hw : w.tree.WellFormed := Specimen.twoProposals_wellFormed
  have hl : w.tree.LinkFree := Specimen.twoProposals_linkFree
  have hseen : ((w.exec (run s none (.utc ⟨0, 0⟩))).1.toOption.map fun o =>
      o.summary.decisions.map (·.decision.reasons.length)) = some [8, 8] := by decide +kernel
  have hseen' : ((World.exec { tree := (w.exec (run s none (.utc ⟨0, 0⟩))).2.tree }
      (run s none (.utc ⟨100000, 0⟩))).1.toOption.map fun o =>
      o.summary.decisions.map (·.decision.reasons.length)) = some [9, 9] := by decide +kernel
  obtain ⟨o, w', hrun, hseen⟩ := World.exists_of_seen hseen
  obtain ⟨o', v', hrun', hseen'⟩ := World.exists_of_seen hseen'
  rw [hrun] at hrun'
  have hsame := dry_runs_repeat (v := { tree := w'.tree }) hdry hw hl hrun rfl hrun'
  exact ⟨hdry, hw, hl, o, w', o', v', hrun, hrun', hseen, hseen', hsame.1, hsame.2.1⟩

end Run

end ProposalReview
