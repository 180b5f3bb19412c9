import Mathlib
import ProposalReview.Proofs.Calendar
import ProposalReview.Proofs.ExitStatus
/-!
What a run changes where incidents and summaries are kept.

However it ends, a run leaves the directory of incidents and the log directory as they were, but for new
directories and for what it writes there under names of its own: in a real run the incidents of flagged
proposals, and at the end of a run that succeeds the summary. These names tell the second that the run
started in.
-/

namespace ProposalReview

variable {f : Filing} {s : Settings} {gate : Option PolicyGate} {now : RunClock} {w w₁ w₂ w' : World}
  {files : List ProposalFile} {ds : List Decision}

/-! ### Places of artifacts -/

/-- The locations in the directory of incidents and in the log directory. -/
def Directories.Artifacts (dirs : Directories) : Set Location :=
  {l | ∃ n, l = dirs.incidents.place ++ [n] ∨ l = dirs.log.place ++ [n]}

theorem Directories.not_mem_artifacts {dirs : Directories} {q : Path} (n : Name)
    (hincidents : q.place ≠ dirs.incidents.place) (hlog : q.place ≠ dirs.log.place) :
    q.place ++ [n] ∉ dirs.Artifacts := by
  rintro ⟨m, h | h⟩
  · exact Path.place_append_ne hincidents n m h
  · exact Path.place_append_ne hlog n m h

/-- No proposal is, was or comes to be where artifacts are kept. -/
theorem Assigned.not_mem_artifacts {p : ProposalFile} {n : Name} {d : Decision}
    (h : Assigned f.dirs.inbox p n d) (hdirs : f.dirs.Distinct) :
    p.path.place ∉ f.dirs.Artifacts ∧ (f.destination d).place ∉ f.dirs.Artifacts := by
  rw [h.place_path, h.place_destination]
  exact ⟨Directories.not_mem_artifacts n hdirs.inbox.1 hdirs.inbox.2,
    Directories.not_mem_artifacts n (hdirs.target _).2.1 (hdirs.target _).2.2⟩

namespace Filing

/-- The place of the incident about a proposal whose name is shown in some way. -/
def incidentPlace (f : Filing) (shown : String) : Location :=
  f.dirs.incidents.place ++ [Text.encodeString ("INC-" ++ f.now.stamp ++ "-" ++ shown)]

end Filing

theorem Assigned.place_incident {p : ProposalFile} {n : Name} {d : Decision}
    (h : Assigned f.dirs.inbox p n d) : (f.incidentPath d).place = f.incidentPlace d.fileName := by
  rw [Filing.place_incidentPath_eq h.about h.valid h.proposal,
    h.about.incident_fileName h.valid h.proposal, Filing.incidentPlace]

/-! ### Parts of a run -/

/-- A survey writes samples at most, and these into the inbox. -/
theorem Run.survey_steady (hdirs : s.dirs.Distinct) (now : RunClock) :
    Keeps (Tree.Steady s.dirs.Artifactsᶜ)
      (survey s now : ExceptT RunError (StateM World) (List ProposalFile)).run := by
  refine survey_keeps_of (setUp_keeps_of now (fun _ _ q _ => (allowsMaking_steady _).mayMake q) ?_)
  intro _ x hx t t' time _ h
  refine (Tree.write_steady h).mono (Set.singleton_subset_iff.mpr ?_)
  have hplace : (s.dirs.inbox.join (.ofString x.1)).place
      = s.dirs.inbox.place ++ [Text.encodeString x.1] :=
    Path.place_child (Samples.valid_name x hx) s.dirs.inbox
  rw [Set.mem_compl_iff, hplace]
  exact Directories.not_mem_artifacts _ hdirs.inbox.1 hdirs.inbox.2

/-- Carrying out a decision, however it ends, changes no artifact but the incident of a flagged
proposal. -/
theorem Assigned.apply_grows {p : ProposalFile} {n : Name} {d : Decision} {r : Except StoreError Record}
    (h : Assigned f.dirs.inbox p n d) (hdirs : f.dirs.Distinct) (hmode : f.mode = .real)
    (hw : w.tree.WellFormed) (hl : w.tree.LinkFree) (hfile : w.tree.FileAt p.path.place)
    (hr : w.exec (f.apply d) = (r, w')) :
    w.tree.Grows (f.dirs.Artifactsᶜ ∪ f.incidentPlaces d) w'.tree := by
  rcases h.apply_moved hdirs hmode hw hl hfile hr with ⟨rfl, -⟩ | ⟨t, t', hmoved, hsteady, rfl⟩
  · exact Tree.Grows.refl _ _
  · obtain ⟨hsource, hdest⟩ := h.not_mem_artifacts hdirs
    have hmove : w.tree.Grows (f.dirs.Artifactsᶜ ∪ f.incidentPlaces d) t := by
      intro l hl
      have hkept : l ∈ f.dirs.Artifacts := by
        by_contra hnot
        exact hl (Or.inl hnot)
      rw [hmoved.entry?, if_neg (ne_of_mem_of_not_mem hkept hdest),
        if_neg (ne_of_mem_of_not_mem hkept hsource)]
      exact Or.inl rfl
    exact hmove.trans ((hsteady.grows hmoved.linkFree).mono Set.subset_union_right)

/-- The same of carrying out decisions in order. -/
theorem Filing.applyAll_grows (hdirs : f.dirs.Distinct) (hmode : f.mode = .real)
    {ps : List ProposalFile} {r : Except StoreError (List Record)} {S : Set Location}
    (hS : f.dirs.Artifactsᶜ ⊆ S) (hincidents : ∀ d ∈ ds, f.incidentPlaces d ⊆ S)
    (ha : Assignment f.dirs.inbox ps ds) (hw : w.tree.WellFormed) (hl : w.tree.LinkFree)
    (hfiles : ∀ p ∈ ps, w.tree.FileAt p.path.place) (h : w.exec (f.applyAll ds) = (r, w')) :
    w.tree.Grows S w'.tree := by
  induction ds generalizing ps w w' r with
  | nil =>
    cases h
    exact Tree.Grows.refl _ _
  | cons d ds ih =>
    cases ps with
    | nil => cases ha.1
    | cons p ps =>
      obtain ⟨⟨n, hn⟩, -⟩ := ha.head
      obtain ⟨hd, hds⟩ := List.forall_mem_cons.mp hincidents
      have hfile := hfiles p List.mem_cons_self
      rcases World.exec_bind_cases h with ⟨e, happly, -⟩ | ⟨_, w₁, happly, h⟩
      · exact (hn.apply_grows hdirs hmode hw hl hfile happly).mono (Set.union_subset hS hd)
      · have hhead := (hn.apply_grows hdirs hmode hw hl hfile happly).mono (Set.union_subset hS hd)
        rcases hn.apply_exec hdirs hmode hw hl hfile happly with ⟨-, e, herr⟩ | ⟨t, rfl, hd⟩
        · cases herr
        have hstill := ha.fileAt_tail hdirs hd hfiles
        rcases World.exec_bind_cases h with ⟨e, hrest, -⟩ | ⟨rs, w₂, hrest, hlast⟩
        · exact hhead.trans (ih hds ha.tail hd.wellFormed hd.linkFree hstill hrest)
        · have htail := ih hds ha.tail hd.wellFormed hd.linkFree hstill hrest
          cases hlast
          exact hhead.trans htail

/-- Writing the summary changes nothing else, and nothing but directories if it fails. -/
theorem Filing.writeSummary_steady {x : Summary} {r : Except StoreError Path}
    (h : w.exec (f.writeSummary x) = (r, w')) :
    (∃ t, w.tree.Steady {l | r.isOk ∧ l = f.summaryPath.place} t ∧ w' = { w with tree := t }) ∧
      ∀ p, r = .ok p → p = f.summaryPath := by
  obtain ⟨t, ht, ⟨rfl, e, rfl⟩ | ⟨t', hwritten, rfl, rfl⟩⟩ :=
    writeSummary_exec (create_keeps (allowsMaking_steady ∅) f.dirs.log) h
  · exact ⟨⟨t, ht.mono (Set.empty_subset _), rfl⟩, fun _ hp => by cases hp⟩
  · refine ⟨⟨t', ?_, rfl⟩, fun _ hp => (Except.ok.inj hp).symm⟩
    refine (ht.mono (Set.empty_subset _)).trans ((Tree.write_steady hwritten).mono ?_)
    exact Set.singleton_subset_iff.mpr ⟨rfl, rfl⟩

/-! ### A whole run -/

/-- Whether a real run from a world scans a proposal whose name is shown in some way, and has a reason
against it. -/
def Run.Flags (s : Settings) (now : RunClock) (w : World) (shown : String) : Prop :=
  s.mode = .real ∧ ∃ files w₁, w.exec (survey s now) = (.ok files, w₁) ∧
    ∃ p ∈ files, p.name = shown ∧ (decideOn s.gates now p).reasons ≠ []

/-- Where a run from a world may write artifacts, given its result. -/
def Run.Writes (s : Settings) (now : RunClock) (w : World) (r : Except RunError Outcome) : Set Location :=
  {l | r.isOk ∧ l = (filing s now).summaryPath.place ∨
    ∃ shown, Flags s now w shown ∧ l = (filing s now).incidentPlace shown}

namespace Run

/-- A reviewed decision with a reason is about a proposal that the run flags, and its incident goes to the
place for that proposal. -/
theorem flags_of_reviewed (hreal : s.mode = .real) (hw : w.tree.WellFormed)
    (hsurvey : w.exec (survey s now) = (.ok files, w₁))
    (hreview : w₁.exec (reviewed s (gate.map PolicyGate.review) (files.map (decideOn s.gates now)))
      = (.ok ds, w₂)) {d : Decision} (hd : d ∈ ds) (hreasons : d.reasons ≠ []) :
    Flags s now w d.fileName ∧
      ((filing s now).incidentPath d).place = (filing s now).incidentPlace d.fileName := by
  obtain ⟨-, -, ns, hscan⟩ := survey_ok hw hsurvey
  have hoverrides := (reviewed_overrides hreview).1
  rw [List.forall₂_map_left_iff] at hoverrides
  obtain ⟨p, n, hx, hn⟩ := ((reviewed_exec hreal hscan hreview).2 ds rfl).of_mem hd
  obtain ⟨a, rfl⟩ := (List.forall₂_iff_zip.mp hoverrides).2 hx
  -- the gate may have changed the action, but neither the name nor the reasons
  have hp := (List.of_mem_zip hx).1
  obtain ⟨m, hread, hm⟩ := hscan.of_mem hp
  have hname : p.name = ((decideOn s.gates now p).override a).fileName := by
    rw [hread.name, ← (about_decideOn hread s.gates now).fileName hm hread.proposal]
    simp only [Decision.fileName, Decision.override_eq]
  rw [Decision.override_eq] at hreasons
  exact ⟨⟨hreal, files, w₁, hsurvey, p, hp, hname, hreasons⟩,
    Assigned.place_incident (f := filing s now) hn⟩

/-- Decisions that are applied, however that ends, keep trees well-formed and without links, and change no
artifacts but incidents. -/
theorem applyAll_artifacts {S : Set Location} (hdirs : s.dirs.Distinct)
    (hS : s.dirs.Artifactsᶜ ⊆ S) (hw : w.tree.WellFormed) (hl : w.tree.LinkFree)
    (hreal : s.mode = .real → Assignment s.dirs.inbox files ds ∧
      (∀ p ∈ files, w.tree.FileAt p.path.place) ∧ ∀ d ∈ ds, (filing s now).incidentPlaces d ⊆ S)
    {r : Except StoreError (List Record)} (h : w.exec ((filing s now).applyAll ds) = (r, w')) :
    w'.tree.WellFormed ∧ w'.tree.LinkFree ∧ w.tree.Grows S w'.tree := by
  cases hmode : s.mode with
  | dryRun =>
    rw [Filing.applyAll_dryRun (f := filing s now) hmode] at h
    cases h
    exact ⟨hw, hl, Tree.Grows.refl _ _⟩
  | real =>
    obtain ⟨ha, hfiles, hincidents⟩ := hreal hmode
    have hgrows :=
      Filing.applyAll_grows (f := filing s now) hdirs hmode hS hincidents ha hw hl hfiles h
    obtain ⟨k, t, hprogress, rfl, -⟩ :=
      Filing.applyAll_progress (f := filing s now) hdirs hmode ha hw hl hfiles h
    obtain ⟨hw', hl'⟩ := hprogress.sound hw hl
    exact ⟨hw', hl', hgrows⟩

/-- The same of carrying out, which may also write the summary. -/
theorem carryOut_artifacts {S : Set Location} (hdirs : s.dirs.Distinct)
    (hS : s.dirs.Artifactsᶜ ⊆ S) (hw : w.tree.WellFormed) (hl : w.tree.LinkFree)
    (hreal : s.mode = .real → Assignment s.dirs.inbox files ds ∧
      (∀ p ∈ files, w.tree.FileAt p.path.place) ∧ ∀ d ∈ ds, (filing s now).incidentPlaces d ⊆ S)
    {r : Except StoreError Outcome} (h : w.exec (carryOut s now ds) = (r, w')) :
    w'.tree.WellFormed ∧ w'.tree.LinkFree ∧
      w.tree.Grows (S ∪ {l | r.isOk ∧ l = (filing s now).summaryPath.place}) w'.tree := by
  rcases World.exec_bind_cases h with ⟨e, happly, rfl⟩ | ⟨rs, w₁, happly, h⟩
  · obtain ⟨hw', hl', hgrows⟩ := applyAll_artifacts hdirs hS hw hl hreal happly
    exact ⟨hw', hl', hgrows.mono Set.subset_union_left⟩
  obtain ⟨hw₁, hl₁, hgrows⟩ := applyAll_artifacts hdirs hS hw hl hreal happly
  rcases World.exec_bind_cases h with ⟨e, hwrite, rfl⟩ | ⟨path, w₂, hwrite, hlast⟩
  · obtain ⟨⟨t, hsteady, rfl⟩, -⟩ := Filing.writeSummary_steady hwrite
    exact ⟨hsteady.wellFormed hw₁, hsteady.linkFree hl₁, hgrows.trans_union (hsteady.grows hl₁)⟩
  · obtain ⟨⟨t, hsteady, rfl⟩, -⟩ := Filing.writeSummary_steady hwrite
    cases hlast
    exact ⟨hsteady.wellFormed hw₁, hsteady.linkFree hl₁, hgrows.trans_union (hsteady.grows hl₁)⟩

theorem summaryPath_of_ok {o : Outcome}
    (h : w.exec (run s (gate.map PolicyGate.review) now) = (.ok o, w')) :
    o.summaryPath = (filing s now).summaryPath := by
  obtain ⟨files, w₁, ds, w₂, -, -, hcarry⟩ := run_ok h
  obtain ⟨-, w₃, -, hwrite⟩ := carryOut_ok hcarry
  exact (Filing.writeSummary_steady hwrite).2 _ rfl

/-- A run keeps trees well-formed and without links, and changes no artifacts but those that it writes
itself. -/
theorem run_artifacts (hdirs : s.dirs.Distinct) (hw : w.tree.WellFormed) (hl : w.tree.LinkFree)
    {r : Except RunError Outcome} (hrun : w.exec (run s (gate.map PolicyGate.review) now) = (r, w')) :
    w'.tree.WellFormed ∧ w'.tree.LinkFree ∧
      w.tree.Grows (s.dirs.Artifactsᶜ ∪ Writes s now w r) w'.tree := by
  rcases World.exec_bind_cases hrun with ⟨e, hsurvey, rfl⟩ | ⟨files, w₁, hsurvey, hrun⟩
  · obtain ⟨t, hsteady, rfl⟩ := (survey_steady hdirs now).exec hsurvey
    exact ⟨hsteady.wellFormed hw, hsteady.linkFree hl,
      (hsteady.grows hl).mono Set.subset_union_left⟩
  obtain ⟨-, -, ns, hscan⟩ := survey_ok hw hsurvey
  obtain ⟨t, hsteady, rfl⟩ := (survey_steady hdirs now).exec hsurvey
  have hw₁ := hsteady.wellFormed hw
  have hl₁ := hsteady.linkFree hl
  have hgrows := (hsteady.grows hl).mono (Set.subset_union_left (t := Writes s now w r))
  rcases World.exec_bind_cases hrun with ⟨e, hreview, -⟩ | ⟨ds, w₂, hreview, hcarry⟩
  · rw [reviewed_tree hreview]
    exact ⟨hw₁, hl₁, hgrows⟩
  have htree := reviewed_tree hreview
  have hreal : s.mode = .real → Assignment s.dirs.inbox files ds ∧
      (∀ p ∈ files, w₂.tree.FileAt p.path.place) ∧
      ∀ d ∈ ds, (filing s now).incidentPlaces d ⊆ s.dirs.Artifactsᶜ ∪ Writes s now w r := by
    intro hmode
    have ha := (reviewed_exec hmode hscan hreview).2 ds rfl
    refine ⟨ha, ?_, fun d hd l hl => ?_⟩
    · rw [htree]
      exact fun p hp => (hscan.stands hl₁ p hp).imp fun _ he => ⟨_, he⟩
    · obtain ⟨hflags, hplace⟩ := flags_of_reviewed hmode hw hsurvey hreview hd hl.1
      exact Or.inr (Or.inr ⟨d.fileName, hflags, hl.2.trans hplace⟩)
  rcases hr : w₂.exec (carryOut s now ds) with ⟨r', w₃⟩
  rw [exec_storing, hr, Prod.mk.injEq] at hcarry
  obtain ⟨hresult, rfl⟩ := hcarry
  obtain ⟨hw', hl', hcarried⟩ := carryOut_artifacts hdirs Set.subset_union_left (htree ▸ hw₁)
    (htree ▸ hl₁) hreal hr
  refine ⟨hw', hl', hgrows.trans ?_⟩
  rw [htree] at hcarried
  refine hcarried.mono (Set.union_subset subset_rfl ?_)
  rintro l ⟨hok, hplace⟩
  refine Or.inr (Or.inl ⟨?_, hplace⟩)
  rw [← hresult]
  cases r' with
  | ok o => rfl
  | error e => cases hok

end Run

end ProposalReview
