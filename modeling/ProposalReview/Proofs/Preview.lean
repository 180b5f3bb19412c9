import Mathlib
import ProposalReview.Proofs.Incidents
/-!
A dry run previews the real run.

Both runs scan the same proposals, since setting up does not depend on the mode, and a gate that allows
everything changes no decision. So both summaries list the same records. The texts of a record say
where the file and the incident went in the real run if no bytes are lost when a path is shown.
-/

namespace ProposalReview

/-! ### Paths that are shown as they are -/

namespace Path

variable {p q : Path} {n : Name}

theorem ofString_display (h : Text.IsUtf8 p.bytes) : ofString p.display = p := by
  rw [ofString, display, h.encodeString]

theorem isUtf8_ofString (s : String) : Text.IsUtf8 (ofString s).bytes := Text.isUtf8_encode s.toList

theorem isUtf8_join (hp : Text.IsUtf8 p.bytes) (hq : Text.IsUtf8 q.bytes) :
    Text.IsUtf8 (p.join q).bytes := by
  have hslash : Text.IsUtf8 ([slash] ++ q.bytes) := Text.IsUtf8.append (by decide) hq
  rw [join]
  split_ifs
  · exact hq
  · split
    · exact hq
    · split_ifs
      · exact hp.append hq
      · exact hp.append hslash

end Path

section

variable {f : Filing} {inbox : Path} {n : Name} {d : Decision}

theorem Filing.destination_shown (h : d.About inbox n) (hn : Name.Valid n) (hutf : Text.IsUtf8 n)
    (happlied : Text.IsUtf8 f.dirs.applied.bytes) (hdemoted : Text.IsUtf8 f.dirs.demoted.bytes) :
    Path.ofString (f.record d).destination = f.destination d := by
  have htarget : Text.IsUtf8 (f.dirs.target d.action).bytes := by
    rw [Directories.target]
    split_ifs
    · exact happlied
    · exact hdemoted
  refine Path.ofString_display ?_
  rw [destination_eq h hn]
  exact Path.isUtf8_join htarget hutf

theorem Filing.incident_shown (hincidents : Text.IsUtf8 f.dirs.incidents.bytes) {i : String}
    (hi : (f.record d).incident = some i) :
    d.reasons ≠ [] ∧ Path.ofString i = f.incidentPath d := by
  rw [record] at hi
  simp only [Option.ite_none_left_eq_some, List.isEmpty_iff, Option.some_inj] at hi
  obtain ⟨hreasons, rfl⟩ := hi
  refine ⟨hreasons, Path.ofString_display ?_⟩
  rw [incidentPath, Incident.path]
  exact Path.isUtf8_join hincidents (Path.isUtf8_ofString _)

end

/-! ### A gate that allows everything -/

/-- The gate that allows every proposal what was decided locally. -/
def allowsAll : PolicyGate := fun _ _ => .ok [("allow", .bool true)]

@[simp] theorem Decision.override_action (d : Decision) : d.override d.action = d := by
  rw [override, if_pos rfl]

theorem allowsAll_answer (workspace : String) (before : List GateRequest) (d : Decision) :
    allowsAll.answer workspace before d = .ok d.action := rfl

theorem allowsAll_settles (workspace : String) (before : List GateRequest) (ds : List Decision) :
    allowsAll.Settles workspace before ds ds := by
  induction ds generalizing before with
  | nil => exact .nil
  | cons d ds ih =>
    have h := PolicyGate.Settles.cons (allowsAll_answer workspace before d) (ih _)
    rwa [d.override_action] at h

namespace Run

variable {s : Settings} {now : RunClock} {w w₁ w₁' w' wd : World} {files files' : List ProposalFile}
  {o o' : Outcome}

theorem reviewed_allowsAll (hreal : s.mode = .real) (w : World) (ds : List Decision) :
    w.exec (reviewed s (some allowsAll.review) ds) = (.ok ds,
      { w with requests := w.requests ++ ds.map (GateRequest.ofDecision s.workspace) }) := by
  rw [reviewed_real hreal, consult_settled (allowsAll_settles _ _ _)]

/-! ### Both runs -/

theorem setUp_mode (s : Settings) (mode : RunMode) (now : RunClock) :
    (setUp { s with mode } now : ExceptT StoreError (StateM World) Unit) = setUp s now := rfl

/-- Surveys that succeed do not differ by the mode. -/
theorem survey_mode {mode : RunMode} (h : w.exec (survey { s with mode } now) = (.ok files, w₁))
    (h' : w.exec (survey s now) = (.ok files', w₁')) : files' = files ∧ w₁' = w₁ := by
  obtain ⟨v, hset, hscan⟩ := survey_parts h
  obtain ⟨v', hset', hscan'⟩ := survey_parts h'
  rw [setUp_mode] at hset
  cases hset.symm.trans hset'
  cases hscan.symm.trans hscan'
  exact ⟨rfl, rfl⟩

theorem summaryOf_dryRun (hreal : s.mode = .real) (now : RunClock) (ds : List Decision) :
    summaryOf s now ds = { summaryOf { s with mode := .dryRun } now ds with dryRun := false } := by
  rw [summaryOf, summaryOf, hreal]
  rfl

/-- A dry run and a real run that is allowed everything carry out the same local decisions. -/
theorem both_runs (hreal : s.mode = .real) {gate : Option AnyGate}
    (hdry : w.exec (run { s with mode := .dryRun } gate now) = (.ok o, wd))
    (hrun : w.exec (run s ((some allowsAll).map PolicyGate.review) now) = (.ok o', w')) :
    ∃ files w₁ w₂, w.exec (survey s now) = (.ok files, w₁) ∧
      w₁.exec (reviewed s ((some allowsAll).map PolicyGate.review) (files.map (decideOn s.gates now)))
        = (.ok (files.map (decideOn s.gates now)), w₂) ∧
      w₂.exec (carryOut s now (files.map (decideOn s.gates now))) = (.ok o', w') ∧
      o.summary = summaryOf { s with mode := .dryRun } now (files.map (decideOn s.gates now)) := by
  obtain ⟨files, w₁, ds, w₂, hsurvey, hreview, hcarry⟩ := run_ok hrun
  obtain ⟨files', v₁, ds', v₂, hsurvey', hreview', hcarry'⟩ := run_ok hdry
  obtain ⟨rfl, rfl⟩ := survey_mode hsurvey' hsurvey
  rw [Option.map_some, reviewed_allowsAll hreal] at hreview
  rw [reviewed_dryRun rfl] at hreview'
  cases hreview
  cases hreview'
  refine ⟨files, w₁, _, hsurvey, ?_, hcarry, (carryOut_ok hcarry').1⟩
  rw [Option.map_some, reviewed_allowsAll hreal]

/-- If no samples are wanted, the scanned proposals stand in the inbox before the run. -/
theorem stands_before (hseed : s.seedSamples = false) (hw : w.tree.WellFormed) (hl : w.tree.LinkFree)
    (hsurvey : w.exec (survey s now) = (.ok files, w₁)) {p : ProposalFile} (hp : p ∈ files) :
    ∃ bytes, w.tree.entry? p.path.place = some (.file bytes p.modified) ∧
      w₁.tree.entry? p.path.place = some (.file bytes p.modified) := by
  obtain ⟨hset, ⟨t, hext, rfl⟩, ns, hscan⟩ := survey_ok hw hsurvey
  obtain ⟨t', hgrows, heq⟩ := (setUp_grows hseed now).exec hset
  cases heq
  obtain ⟨bytes, he⟩ := hscan.stands (hext.linkFree hl) p hp
  -- setting up has added directories only, so the file was there before
  obtain ⟨bytes', time, he'⟩ := hgrows.fileAt (Set.notMem_empty _) ⟨bytes, _, he⟩
  have hstill := hgrows.keeps (Set.notMem_empty _) he'
  cases hstill.symm.trans he
  exact ⟨bytes, he', he⟩

/-- If both a dry run and the real run that is allowed everything succeed from the same tree, their
summaries differ only in saying so; and where no bytes are lost in showing a path, the real run has
taken every proposal to the destination and filed every incident under the path that the dry run
reported. -/
theorem dry_run_previews_run (hreal : s.mode = .real) (hseed : s.seedSamples = false)
    (hdirs : s.dirs.Distinct) (hw : w.tree.WellFormed) (hl : w.tree.LinkFree) {gate : Option AnyGate}
    (hdry : w.exec (run { s with mode := .dryRun } gate now) = (.ok o, wd))
    (hrun : w.exec (run s ((some allowsAll).map PolicyGate.review) now) = (.ok o', w')) :
    o.summary.dryRun = true ∧ o'.summary = { o.summary with dryRun := false } ∧
    ((∀ n, w.tree.FileAt (s.dirs.inbox.place ++ [n]) → Text.IsUtf8 n) →
      (∀ p ∈ [s.dirs.applied, s.dirs.demoted, s.dirs.incidents], Text.IsUtf8 p.bytes) →
      ∀ r ∈ o.summary.decisions,
        (∃ bytes time, w.tree.entry? r.decision.source.place = some (.file bytes time) ∧
          ¬ w'.tree.FileAt r.decision.source.place ∧
          w'.tree.entry? (Path.ofString r.destination).place = some (.file bytes time)) ∧
        (r.incident = none ↔ r.decision.reasons = []) ∧
        ∀ i, r.incident = some i → ∃ time, w'.tree.entry? (Path.ofString i).place
          = some (.file (Text.encodeString (Incident.text r.decision now false)) time)) := by
  obtain ⟨files, w₁, w₂, hsurvey, hreview, hcarry, hsummary⟩ := both_runs hreal hdry hrun
  refine ⟨?_, ?_, ?_⟩
  · rw [hsummary]
    rfl
  · rw [(carryOut_ok hcarry).1, hsummary, summaryOf_dryRun hreal]
  intro hnames hpaths r hr
  obtain ⟨hreached, t, hcarried, hstill⟩ :=
    carryOut_carried hreal hdirs hw hl hsurvey hreview hcarry
  have ha := hreached.assignment
  simp only [List.forall_mem_cons, List.not_mem_nil, false_imp_iff, implies_true, and_true] at hpaths
  obtain ⟨happlied, hdemoted, hincidents⟩ := hpaths
  have hutf : ∀ {p n d}, p ∈ files → Assigned s.dirs.inbox p n d → Text.IsUtf8 n := by
    intro p n d hp hn
    obtain ⟨bytes, he, -⟩ := stands_before hseed hw hl hsurvey hp
    rw [hn.place_path] at he
    exact hnames n ⟨bytes, _, he⟩
  rw [hsummary] at hr
  obtain ⟨d, hd, rfl⟩ := List.mem_map.mp hr
  refine ⟨?_, ?_, ?_⟩
  · obtain ⟨p, n, hx, hn⟩ := ha.of_mem hd
    have hp := (List.of_mem_zip hx).1
    obtain ⟨bytes, he, he₁⟩ := stands_before hseed hw hl hsurvey hp
    have hxs : (p, d) ∈ (files.zip (files.map (decideOn s.gates now))).take files.length := by
      rwa [List.take_of_length_le (by simp)]
    obtain ⟨hgone, harrived⟩ := hreached.moves hxs hn he₁
    have hshown : (Path.ofString ((filing s now).record d).destination).place
        = (s.dirs.target d.action).place ++ [n] := by
      rw [Filing.destination_shown hn.about hn.valid (hutf hp hn) happlied hdemoted]
      exact Assigned.place_destination (f := filing s now) hn
    have hsource : d.source = p.path := by rw [hn.about.source, hn.path]
    refine ⟨bytes, p.modified, hsource ▸ he, hsource ▸ hgone, ?_⟩
    rw [← harrived, ← hshown]
    rfl
  · simp [Filing.record]
  · intro i hi
    obtain ⟨hreasons, hpath⟩ := Filing.incident_shown (f := filing s now) hincidents hi
    rw [hpath]
    refine hstill d hd (hcarried.filed_each hdirs ha ?_ hd hreasons)
    intro d' hd' _ n hn
    obtain ⟨p, m, hx, hm⟩ := ha.of_mem hd'
    rw [hm.baseName?_source, Option.some_inj] at hn
    exact hn ▸ hutf (List.of_mem_zip hx).1 hm

/-- The dry run says that both proposals would be demoted with an incident, and so they are. -/
theorem dry_run_previews_run_specimen :
    let w : World := { tree := Specimen.twoProposals }
    ∃ o wd o' w', w.exec (run { Specimen.settings with mode := .dryRun } none (.utc ⟨0, 0⟩)) = (.ok o, wd) ∧
      w.exec (run Specimen.settings ((some allowsAll).map PolicyGate.review) (.utc ⟨0, 0⟩)) = (.ok o', w') ∧
      o'.summary = { o.summary with dryRun := false } ∧
      o.summary.decisions.map Record.destination = ["d/a.md", "d/b.md"] ∧
      ∀ r ∈ o.summary.decisions, w'.tree.FileAt (Path.ofString r.destination).place ∧
        ∃ i, r.incident = some i ∧ w'.tree.FileAt (Path.ofString i).place := by
  intro w
  have hdrySeen : ((w.exec (run { Specimen.settings with mode := .dryRun } none
      (.utc ⟨0, 0⟩))).1.toOption.map fun o => (o.summary.decisions.map Record.destination,
        o.summary.decisions.all fun r => r.incident.isSome))
      = some (["d/a.md", "d/b.md"], true) := by decide +kernel
  have hrunSeen : ((w.exec (run Specimen.settings ((some allowsAll).map PolicyGate.review)
      (.utc ⟨0, 0⟩))).1.toOption.map fun _ => true) = some true := by decide +kernel
  obtain ⟨o, wd, hdry, hseen⟩ := World.exists_of_seen hdrySeen
  obtain ⟨o', w', hrun, -⟩ := World.exists_of_seen hrunSeen
  obtain ⟨hdestinations, hincidents⟩ := Prod.mk.inj hseen
  obtain ⟨-, hsummary, hplaces⟩ := dry_run_previews_run rfl rfl Specimen.dirs_distinct
    Specimen.twoProposals_wellFormed Specimen.twoProposals_linkFree hdry hrun
  have hentries : ∀ x ∈ Specimen.twoProposals.entries, ∀ n ∈ x.1.getLast?, Text.IsUtf8 n := by decide
  have hnames : ∀ n, w.tree.FileAt (Specimen.dirs.inbox.place ++ [n]) → Text.IsUtf8 n := by
    rintro n ⟨bytes, time, he⟩
    have hmem := (Specimen.twoProposals_wellFormed.mem_entries (by simp)).mpr he
    exact hentries _ hmem n (by simp)
  refine ⟨o, wd, o', w', hdry, hrun, hsummary, hdestinations, ?_⟩
  intro r hr
  obtain ⟨⟨bytes, time, -, -, hmoved⟩, -, hfiled⟩ := hplaces hnames (by decide) r hr
  obtain ⟨i, hi⟩ := Option.isSome_iff_exists.mp (List.all_eq_true.mp hincidents r hr)
  obtain ⟨time', htext⟩ := hfiled i hi
  exact ⟨⟨bytes, time, hmoved⟩, i, hi, _, time', htext⟩

end Run

end ProposalReview
