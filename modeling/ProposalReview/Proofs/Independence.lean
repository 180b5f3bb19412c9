import Mathlib
import ProposalReview.Proofs.Disclosure
import ProposalReview.Proofs.Filing.Newcomer
import ProposalReview.Proofs.Outcome
/-!
Proposals are judged one by one.

A file that is added to a tree leaves the records of all proposals alone whose paths lead elsewhere. Two
runs, without it and with it, set up alike, so they scan the same files apart from it; each file is decided
on by itself; and a gate that goes by the request alone overrules the same decisions. Without links no other
path leads to the added file; with them it can be read under several names.
-/

namespace ProposalReview

/-- A gate whose answers depend on the request alone. -/
def PolicyGate.Stateless (g : PolicyGate) : Prop := ∀ before before' q, g before q = g before' q

/-- The gate that promotes every proposal. -/
def promotesAll : PolicyGate := fun _ _ => .ok [("action", .string "promote")]

theorem promotesAll_stateless : promotesAll.Stateless := fun _ _ _ => rfl

/-- A tree in which a name in the inbox is a link to `a.md`, with some more entries. -/
def Specimen.linked (link : Name) (more : List (Location × Entry)) : Tree :=
  ⟨([[0x69]], .directory) :: ([[0x69], link], .link ⟨name⟩) :: more⟩

/-! ### Scanning -/

namespace Inbox

variable {t t' : Tree} {inbox p : Path} {l : Location} {n : Name} {listed listed' ns : List Name}
  {w w' v v' : World} {fs fs' : List ProposalFile}

/-- What a path elsewhere leads to, it leads to with and without the newcomer. -/
theorem find_apart {e : Entry} (h : Tree.AgreeBut l t t') (hapart : t'.locate p ≠ .ok l) :
    t.find p = .ok e ↔ t'.find p = .ok e := by
  refine ⟨h.find ?_, h.symm.find ?_⟩
  · rintro m hm rfl
    exact hapart (h.locate hm)
  · rintro m hm rfl
    exact hapart hm

theorem isFile_iff : t.isFile p ↔ ∃ bytes time, t.find p = .ok (.file bytes time) := by
  refine ⟨find_of_isFile, ?_⟩
  rintro ⟨bytes, time, hfind⟩
  rw [Tree.isFile, hfind]

/-- Of the names that lead elsewhere the same ones are read. -/
theorem mem_readNames_apart (h : Tree.AgreeBut l t t') (hnew : t'.FileAt l) (hw : t.WellFormed)
    (hw' : t'.WellFormed) (hlisted : t.names inbox = .ok listed)
    (hlisted' : t'.names inbox = .ok listed') (hapart : t'.locate (inbox.child n) ≠ .ok l) :
    n ∈ readNames t inbox listed ↔ n ∈ readNames t' inbox listed' := by
  obtain ⟨d, hd, hdir, rfl⟩ := names_ok hlisted
  obtain ⟨d', hd', hdir', rfl⟩ := names_ok hlisted'
  cases (h.locate hd).symm.trans hd'
  have hfile : t.isFile (inbox.child n) ↔ t'.isFile (inbox.child n) := by
    simp only [isFile_iff, find_apart h hapart]
  rw [mem_readNames, mem_readNames, hfile]
  refine and_congr_left fun ⟨_, hread⟩ => ?_
  -- the newcomer itself is listed only beside it, but its name leads to it
  have hother : d ++ [n] ≠ l := by
    rintro rfl
    obtain ⟨bytes, time, hfind⟩ := find_of_isFile hread
    obtain ⟨m, hm, -⟩ := Tree.find_ok hfind
    have hvalid : Name.Valid n := by
      obtain ⟨_, _, he⟩ := hnew
      exact hw'.valid he
    rw [Tree.locate_child hvalid hd' hdir' hnew hm] at hm
    exact hapart hm
  simp only [mem_namesIn, hw.mem_entries (l := d ++ [n]) (by simp),
    hw'.mem_entries (l := d ++ [n]) (by simp), h.elsewhere _ hother]

/-- The names that lead elsewhere are read in the same order. -/
theorem readNames_apart (h : Tree.AgreeBut l t t') (hnew : t'.FileAt l) (hw : t.WellFormed)
    (hw' : t'.WellFormed) (hlisted : t.names inbox = .ok listed)
    (hlisted' : t'.names inbox = .ok listed') :
    (readNames t inbox listed).filter (fun n => t'.locate (inbox.child n) ≠ .ok l)
      = (readNames t' inbox listed').filter (fun n => t'.locate (inbox.child n) ≠ .ok l) := by
  refine List.Perm.eq_of_pairwise' ((sortNames_pairwise _).filter _) ((sortNames_pairwise _).filter _) ?_
  refine (List.perm_ext_iff_of_nodup ((readNames_nodup hw hlisted).filter _)
    ((readNames_nodup hw' hlisted').filter _)).mpr fun n => ?_
  rw [List.mem_filter, List.mem_filter, decide_eq_true_eq]
  exact and_congr_left fun hapart => mem_readNames_apart h hnew hw hw' hlisted hlisted' hapart

/-- A file elsewhere reads alike with and without the newcomer. -/
theorem Read.apart {f f' : ProposalFile} (h : Tree.AgreeBut l t t') (hread : Read t inbox n f)
    (hread' : Read t' inbox n f') (hapart : t'.locate (inbox.child n) ≠ .ok l) : f' = f := by
  obtain ⟨bytes, hfind, htext⟩ := hread.found
  obtain ⟨bytes', hfind', htext'⟩ := hread'.found
  rw [hread.path] at hfind
  rw [hread'.path, ← find_apart h hapart, hfind] at hfind'
  obtain ⟨rfl, htime⟩ := Entry.file.inj (Except.ok.inj hfind')
  have hpath : f'.path = f.path := hread'.path.trans hread.path.symm
  have hname : f'.name = f.name := hread'.name.trans hread.name.symm
  have htexts : f'.text = f.text := htext'.trans htext.symm
  cases f
  cases f'
  simp_all

theorem reads_apart (h : Tree.AgreeBut l t t') (hread : List.Forall₂ (Read t inbox) ns fs)
    (hread' : List.Forall₂ (Read t' inbox) ns fs')
    (hapart : ∀ n ∈ ns, t'.locate (inbox.child n) ≠ .ok l) : fs' = fs := by
  induction hread generalizing fs' with
  | nil =>
    cases hread'
    rfl
  | cons hn _ ih =>
    obtain ⟨hfirst, hrest⟩ := List.forall_mem_cons.mp hapart
    cases hread' with
    | cons hn' hns' => rw [hn.apart h hn' hfirst, ih hns' hrest]

theorem reads_filter {q : Path → Bool} (h : List.Forall₂ (Read t inbox) ns fs) :
    List.Forall₂ (Read t inbox) (ns.filter fun n => q (inbox.child n))
      (fs.filter fun f => q f.path) := by
  induction h with
  | nil => exact .nil
  | cons hn _ ih =>
    rw [List.filter_cons, List.filter_cons, hn.path]
    split_ifs
    · exact .cons hn ih
    · exact ih

/-- Two scans give the same files, apart from the newcomer. -/
theorem scan_apart (h : Beside l w v) (hw : w.tree.WellFormed) (hv : v.tree.WellFormed)
    (hscan : w.exec (scan inbox) = (.ok fs, w')) (hscan' : v.exec (scan inbox) = (.ok fs', v')) :
    fs.filter (fun f => v.tree.locate f.path ≠ .ok l)
      = fs'.filter (fun f => v.tree.locate f.path ≠ .ok l) := by
  obtain ⟨-, listed, hlisted, hreads⟩ := scan_parts hscan
  obtain ⟨-, listed', hlisted', hreads'⟩ := scan_parts hscan'
  have hfiltered := reads_filter (q := fun p => v.tree.locate p ≠ .ok l) hreads
  have hfiltered' := reads_filter (q := fun p => v.tree.locate p ≠ .ok l) hreads'
  rw [← readNames_apart h.agree h.newcomer hw hv hlisted hlisted'] at hfiltered'
  refine (reads_apart h.agree hfiltered hfiltered' fun n hn => ?_).symm
  simpa using (List.mem_filter.mp hn).2

end Inbox

/-! ### Reviewing -/

/-- A decision with the action that a gate gives for it as for the first one, if it gives one. -/
def PolicyGate.settled (g : PolicyGate) (workspace : String) (d : Decision) : Decision :=
  match g.answer workspace [] d with
  | .ok a => d.override a
  | .error _ => d

theorem PolicyGate.Settles.eq_map {g : PolicyGate} {workspace : String} {before : List GateRequest}
    {ds final : List Decision} (h : g.Settles workspace before ds final) (hg : g.Stateless) :
    final = ds.map (g.settled workspace) := by
  induction h with
  | nil => rfl
  | @cons before d ds a final hanswer _ ih =>
    have hfirst : g.answer workspace [] d = .ok a := by
      rw [← hanswer, PolicyGate.answer, PolicyGate.answer, hg before []]
    rw [List.map_cons, ← ih, settled, hfirst]

namespace Run

variable {s : Settings} {now : RunClock} {gate : Option PolicyGate} {ds final : List Decision}
  {w w' v v' : World} {o o' : Outcome} {l : Location} {files files' : List ProposalFile}

/-- A decision as it is carried out if the gate goes by the request alone. -/
def settledOn (s : Settings) (gate : Option PolicyGate) (d : Decision) : Decision :=
  match s.mode, gate with
  | .real, some g => g.settled s.workspace d
  | _, _ => d

theorem source_settledOn (d : Decision) : (settledOn s gate d).source = d.source := by
  unfold settledOn
  split
  · unfold PolicyGate.settled
    split
    · exact d.source_override _
    · rfl
  · rfl

/-- Each decision is reviewed by itself. -/
theorem reviewed_eq_map (hg : s.mode = .real → ∀ g ∈ gate, g.Stateless)
    (h : w.exec (reviewed s (gate.map PolicyGate.review) ds) = (.ok final, w')) :
    final = ds.map (settledOn s gate) := by
  cases hmode : s.mode with
  | dryRun =>
    have hid : settledOn s gate = id := by
      funext d
      rw [settledOn.eq_def, hmode]
      rfl
    rw [reviewed_dryRun hmode] at h
    cases h
    rw [hid, List.map_id]
  | real =>
    cases gate with
    | none =>
      rw [Option.map_none, reviewed.eq_def, hmode] at h
      cases h
    | some g =>
      have hsettled : settledOn s (some g) = g.settled s.workspace := by
        funext d
        rw [settledOn.eq_def, hmode]
      rw [Option.map_some, reviewed_real hmode] at h
      rw [hsettled]
      exact ((consult_cases h).2 final rfl).eq_map (hg hmode g rfl)

/-- The record that a proposal has in the summary if the gate goes by the request alone. -/
def recordOf (s : Settings) (gate : Option PolicyGate) (now : RunClock) (f : ProposalFile) : Record :=
  (filing s now).record (settledOn s gate (decideOn s.gates now f))

theorem source_recordOf (f : ProposalFile) : (recordOf s gate now f).decision.source = f.path :=
  source_settledOn _

/-- The summary lists the records of the files that were scanned, each of them by itself. -/
theorem run_records (hg : s.mode = .real → ∀ g ∈ gate, g.Stateless)
    (hrun : w.exec (run s (gate.map PolicyGate.review) now) = (.ok o, w')) :
    ∃ files w₁, w.exec (survey s now) = (.ok files, w₁) ∧
      o.summary.decisions = files.map (recordOf s gate now) := by
  obtain ⟨files, w₁, final, w₂, hsurvey, hreview, hcarry⟩ := run_ok hrun
  refine ⟨files, w₁, hsurvey, ?_⟩
  rw [decisions_of_carryOut hcarry, reviewed_eq_map hg hreview, List.map_map, List.map_map]
  rfl

theorem filter_records (q : Path → Bool) (files : List ProposalFile) :
    (files.map (recordOf s gate now)).filter (fun r => q r.decision.source)
      = (files.filter fun f => q f.path).map (recordOf s gate now) := by
  rw [List.filter_map]
  refine congrArg _ (List.filter_congr fun f _ => ?_)
  rw [Function.comp_apply, source_recordOf]

/-- Two surveys leave worlds beside each other, and give the same files apart from the newcomer. -/
theorem survey_apart {w₁ v₁ : World} (h : Beside l w v) (hw : w.tree.WellFormed)
    (hv : v.tree.WellFormed) (hsurvey : w.exec (survey s now) = (.ok files, w₁))
    (hsurvey' : v.exec (survey s now) = (.ok files', v₁)) :
    Beside l w₁ v₁ ∧ files.filter (fun f => v₁.tree.locate f.path ≠ .ok l)
      = files'.filter (fun f => v₁.tree.locate f.path ≠ .ok l) := by
  obtain ⟨w₂, hset, hscan⟩ := survey_parts hsurvey
  obtain ⟨v₂, hset', hscan'⟩ := survey_parts hsurvey'
  obtain ⟨rfl, -⟩ := Inbox.scan_parts hscan
  obtain ⟨rfl, -⟩ := Inbox.scan_parts hscan'
  have hbeside := h.setUp hset hset'
  obtain ⟨t, hext, rfl⟩ := (setUp_keeps s now).exec hset
  obtain ⟨t', hext', rfl⟩ := (setUp_keeps s now).exec hset'
  exact ⟨hbeside, Inbox.scan_apart hbeside (hext.wellFormed hw) (hext'.wellFormed hv) hscan hscan'⟩

/-- Without links every file that was scanned is at its place. -/
theorem survey_locate {w₁ : World} (hw : w.tree.WellFormed) (hl : w.tree.LinkFree)
    (hsurvey : w.exec (survey s now) = (.ok files, w₁)) :
    ∀ f ∈ files, w₁.tree.locate f.path = .ok f.path.place := by
  obtain ⟨-, ⟨t, hext, rfl⟩, ns, hscan⟩ := survey_ok hw hsurvey
  intro f hf
  obtain ⟨n, hread, -⟩ := hscan.of_mem hf
  obtain ⟨bytes, hfind, -⟩ := hread.found
  obtain ⟨m, hm, -⟩ := Tree.find_ok hfind
  rw [hm, (hext.linkFree hl).locate hm]

/-- A file that is added to a tree changes no record of a proposal whose path leads elsewhere, and not the
order of these records: here the tree is looked at as the second run scans it. Without links all paths
lead elsewhere but that of the added file. -/
theorem run_judges_apart (hg : s.mode = .real → ∀ g ∈ gate, g.Stateless)
    (hw : w.tree.WellFormed) (hv : v.tree.WellFormed) (hnow : v.now = w.now)
    (hfree : w.tree.entry? l = none) (hadded : v.tree.FileAt l)
    (hsame : ∀ m, m ≠ l → v.tree.entry? m = w.tree.entry? m)
    (hrun : w.exec (run s (gate.map PolicyGate.review) now) = (.ok o, w'))
    (hrun' : v.exec (run s (gate.map PolicyGate.review) now) = (.ok o', v')) :
    let scanned := (v.exec (survey s now)).2.tree
    (o.summary.decisions.filter fun r => scanned.locate r.decision.source ≠ .ok l)
        = (o'.summary.decisions.filter fun r => scanned.locate r.decision.source ≠ .ok l) ∧
      (w.tree.LinkFree → (o.summary.decisions.filter fun r => r.decision.source.place ≠ l)
        = o'.summary.decisions.filter fun r => r.decision.source.place ≠ l) := by
  intro scanned
  obtain ⟨files, w₁, hsurvey, hrecords⟩ := run_records hg hrun
  obtain ⟨files', v₁, hsurvey', hrecords'⟩ := run_records hg hrun'
  have hbeside : Beside l w v := ⟨⟨.inl hfree, .inr hadded, hsame⟩, hadded, hnow⟩
  obtain ⟨hbeside₁, hfiles⟩ := survey_apart hbeside hw hv hsurvey hsurvey'
  have hscanned : scanned = v₁.tree := by
    simp only [scanned, hsurvey']
  rw [hscanned, hrecords, hrecords']
  refine ⟨?_, fun hl => ?_⟩
  · rw [filter_records (fun p => v₁.tree.locate p ≠ .ok l),
      filter_records (fun p => v₁.tree.locate p ≠ .ok l), hfiles]
  · have hl' : v.tree.LinkFree := by
      intro m target
      by_cases hm : m = l
      · obtain ⟨bytes, time, hfile⟩ := hadded
        rw [hm, hfile]
        simp
      · rw [hsame m hm]
        exact hl m target
    have hplace : ∀ f ∈ files, (f.path.place ≠ l ↔ v₁.tree.locate f.path ≠ .ok l) := fun f hf => by
      rw [hbeside₁.agree.locate (survey_locate hw hl hsurvey f hf)]
      simp
    have hplace' : ∀ f ∈ files', (f.path.place ≠ l ↔ v₁.tree.locate f.path ≠ .ok l) := fun f hf => by
      rw [survey_locate hv hl' hsurvey' f hf]
      simp
    rw [filter_records (fun p => p.place ≠ l), filter_records (fun p => p.place ≠ l),
      List.filter_congr fun f hf => decide_eq_decide.mpr (hplace f hf),
      List.filter_congr fun f hf => decide_eq_decide.mpr (hplace' f hf), hfiles]

/-- A second proposal in the inbox leaves the record of the first one alone, also in a real run. -/
theorem run_judges_apart_promotesAll :
    let w : World := { tree := Specimen.tree [] }
    let v : World := { tree := Specimen.twoProposals }
    let review := (some promotesAll).map PolicyGate.review
    ∃ o o' w' v', w.exec (run Specimen.settings review (.utc ⟨0, 0⟩)) = (.ok o, w') ∧
      v.exec (run Specimen.settings review (.utc ⟨0, 0⟩)) = (.ok o', v') ∧
      o.summary.decisions.map (fun r => r.decision.fileName) = ["a.md"] ∧
      o'.summary.decisions.map (fun r => r.decision.fileName) = ["a.md", "b.md"] ∧
      (o.summary.decisions.filter fun r => r.decision.source.place ≠ [[0x69], Specimen.otherName])
        = o'.summary.decisions.filter fun r =>
          r.decision.source.place ≠ [[0x69], Specimen.otherName] := by
  intro w v review
  have hnames : ((w.exec (run Specimen.settings review (.utc ⟨0, 0⟩))).1.toOption.map fun o =>
      o.summary.decisions.map fun r => r.decision.fileName) = some ["a.md"] := by decide +kernel
  have hnames' : ((v.exec (run Specimen.settings review (.utc ⟨0, 0⟩))).1.toOption.map fun o =>
      o.summary.decisions.map fun r => r.decision.fileName) = some ["a.md", "b.md"] := by
    decide +kernel
  obtain ⟨o, w', hrun, hnames⟩ := World.exists_of_seen hnames
  obtain ⟨o', v', hrun', hnames'⟩ := World.exists_of_seen hnames'
  have hadded : v.tree.FileAt [[0x69], Specimen.otherName] := ⟨[2], ⟨0, 0⟩, rfl⟩
  have hsame : ∀ m, m ≠ [[0x69], Specimen.otherName] → v.tree.entry? m = w.tree.entry? m := by
    intro m hm
    by_cases hroot : m = []
    · rw [hroot, Tree.entry?_nil, Tree.entry?_nil]
    · rw [Tree.entry?_of_ne_nil hroot, Tree.entry?_of_ne_nil hroot]
      simp [v, w, Specimen.twoProposals, Specimen.tree, Tree.lookup_cons_ite, hm]
  have hgate : Specimen.settings.mode = .real → ∀ g ∈ some promotesAll, g.Stateless :=
    fun _ g hg => Option.mem_some.mp hg ▸ promotesAll_stateless
  have hw : w.tree.WellFormed := .of_entries (by decide) (by decide)
  have hnow : v.now = w.now := rfl
  have hfree : w.tree.entry? [[0x69], Specimen.otherName] = none := rfl
  obtain ⟨-, hapart⟩ := run_judges_apart hgate hw Specimen.twoProposals_wellFormed hnow hfree
    hadded hsame hrun hrun'
  exact ⟨o, o', w', v', hrun, hrun', hnames, hnames', hapart (.of_entries (by decide))⟩

/-- Where a name in the inbox is a link to a missing file, adding that file changes another record than
its own: that of the link, which only then is a proposal, or to which a sample is written otherwise. -/
theorem newcomer_is_read_through_links :
    let added : Location × Entry :=
      ([[0x69], Specimen.name], .file (Text.encodeString "eval: yes") ⟨-3600, 0⟩)
    let sample := Text.encodeString "PRJ-PIPELINE-PASS_v1.md"
    let others := fun (samples : Bool) (t : Tree) =>
      let s : Settings := { Specimen.settings with mode := .dryRun, seedSamples := samples }
      (World.exec { tree := t } (run s none (.utc ⟨0, 0⟩))).1.toOption.map fun o =>
        (o.summary.decisions.filter fun r =>
          r.decision.source ≠ Specimen.dirs.inbox.child Specimen.name).map fun r =>
            (r.decision.fileName, r.decision.ageHours)
    (∀ link ∈ [Specimen.otherName, sample], ∀ more ∈ [[], [added]],
      (Specimen.linked link more).WellFormed) ∧
    others false (Specimen.linked Specimen.otherName []) = some [] ∧
    others false (Specimen.linked Specimen.otherName [added]) = some [("b.md", 1.0)] ∧
    others true (Specimen.linked sample [])
      = some [("PRJ-PIPELINE-FAIL-KPI_v1.md", 0.0), ("PRJ-PIPELINE-FAIL-MISSING_v1.md", 0.0),
        ("PRJ-PIPELINE-PASS_v1.md", 0.0)] ∧
    others true (Specimen.linked sample [added])
      = some [("PRJ-PIPELINE-FAIL-KPI_v1.md", 0.0), ("PRJ-PIPELINE-FAIL-MISSING_v1.md", 0.0),
        ("PRJ-PIPELINE-PASS_v1.md", 1.0)] := by
  intro added sample others
  refine ⟨?_, by decide +kernel, by decide +kernel, by decide +kernel, by decide +kernel⟩
  have hwell : ∀ link ∈ [Specimen.otherName, sample], ∀ more ∈ [[], [added]],
      ((Specimen.linked link more).entries.map Prod.fst).Nodup ∧
        ∀ x ∈ (Specimen.linked link more).entries, ∃ h : x.1 ≠ [], Name.Valid (x.1.getLast h) ∧
          Tree.entry? (Specimen.linked link more) x.1.dropLast = some .directory := by decide +kernel
  exact fun link hlink more hmore =>
    .of_entries (hwell link hlink more hmore).1 (hwell link hlink more hmore).2

end Run

end ProposalReview
