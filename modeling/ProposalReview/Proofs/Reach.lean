import Mathlib
import ProposalReview.Proofs.Consultation
import ProposalReview.Proofs.Delivery
/-!
How far a real run comes.

Between the tree that the inbox was scanned in and the tree that a run leaves, the decisions about the
first `k` proposals were carried out, and then perhaps the summary was written. What has become of the
files in the inbox and in the directories that files are moved to follows from this alone, so it holds
however the run ends.
-/

namespace ProposalReview

variable {s : Settings} {gate : Option PolicyGate} {now : RunClock} {w w₁ w' : World}
  {files : List ProposalFile}

/-! ### Decisions of a run -/

theorem PolicyGate.answer_ne_hold {g : PolicyGate} {workspace : String} {before : List GateRequest}
    {d : Decision} {a : Action} (hd : d.action ≠ .hold) (h : g.answer workspace before d = .ok a) :
    a ≠ .hold := by
  rw [answer] at h
  cases hreply : g before (GateRequest.ofDecision workspace d) with
  | error e =>
    rw [hreply] at h
    cases h
  | ok reply =>
    rw [hreply] at h
    exact verdict_ne_hold hd h

/-- What a gate settles is still about the same proposals. -/
theorem PolicyGate.Settles.assigned {g : PolicyGate} {workspace : String} {inbox : Path}
    {before : List GateRequest} {ps : List ProposalFile} {ds final : List Decision}
    (h : g.Settles workspace before ds final)
    (hall : List.Forall₂ (fun p d => ∃ n, Assigned inbox p n d) ps ds) :
    List.Forall₂ (fun p d => ∃ n, Assigned inbox p n d) ps final := by
  induction h generalizing ps with
  | nil =>
    cases hall
    exact .nil
  | cons answered _ ih =>
    cases hall with
    | cons hp hrest =>
      obtain ⟨n, hn⟩ := hp
      have hmoves := hn.about.override (answer_ne_hold hn.about.moves answered)
      exact .cons ⟨n, hn.valid, hn.proposal, hn.path, hmoves⟩ (ih hrest)

theorem Inbox.Scanned.assigned {t : Tree} {inbox : Path} {ns : List Name}
    (h : Scanned t inbox ns files) (gates : GateSettings) (now : RunClock) :
    List.Forall₂ (fun p d => ∃ n, Assigned inbox p n d) files
      (files.map (Run.decideOn gates now)) := by
  rw [List.forall₂_map_right_iff]
  refine List.forall₂_same.mpr fun f hf => ?_
  obtain ⟨n, hread, hn⟩ := h.of_mem hf
  exact ⟨n, hn, hread.proposal, hread.path, Run.about_decideOn hread gates now⟩

/-- Proposals that were scanned are at different places. -/
theorem Inbox.Scanned.places_nodup {t : Tree} {inbox : Path} {ns : List Name}
    (h : Scanned t inbox ns files) : (files.map fun p => p.path.place).Nodup := by
  have hplaces : (files.map fun p => p.path.place) = ns.map fun n => inbox.place ++ [n] := by
    calc (files.map fun p => p.path.place) = (files.map ProposalFile.path).map Path.place := by
          rw [List.map_map]
          rfl
      _ = ns.map fun n => (inbox.child n).place := by
          rw [h.paths, List.map_map]
          rfl
      _ = ns.map fun n => inbox.place ++ [n] :=
          List.map_congr_left fun n hn => Path.place_child (h.valid n hn) inbox
  rw [hplaces]
  exact h.nodup.map fun m n hmn => List.singleton_injective (List.append_cancel_left hmn)

/-- In a real run the decisions that are carried out are about the proposals of the inbox, and
reviewing them leaves the tree alone. -/
theorem Run.reviewed_exec (hreal : s.mode = .real) {t : Tree} {ns : List Name}
    (hscan : Inbox.Scanned t s.dirs.inbox ns files) {r : Except RunError (List Decision)}
    (h : w.exec (reviewed s (gate.map PolicyGate.review) (files.map (decideOn s.gates now)))
      = (r, w')) :
    w'.tree = w.tree ∧ ∀ ds, r = .ok ds → Assignment s.dirs.inbox files ds := by
  cases gate with
  | none =>
    rw [Option.map_none, reviewed.eq_def, hreal] at h
    cases h
    exact ⟨rfl, fun ds hds => by cases hds⟩
  | some g =>
    rw [Option.map_some, reviewed_real hreal] at h
    obtain ⟨htree, hsettles⟩ := consult_cases h
    exact ⟨htree, fun ds hds =>
      ⟨(hsettles ds hds).assigned (hscan.assigned s.gates now), hscan.places_nodup⟩⟩

/-! ### Carrying out -/

/-- However carrying out ends, an initial part of the decisions has been carried out, and beyond that
only the summary may have been written. -/
theorem Run.carryOut_progress {ds : List Decision} (hreal : s.mode = .real)
    (hdirs : s.dirs.Distinct) (ha : Assignment s.dirs.inbox files ds) (hw : w.tree.WellFormed)
    (hl : w.tree.LinkFree) (hfiles : ∀ p ∈ files, w.tree.FileAt p.path.place)
    {r : Except StoreError Outcome} (h : w.exec (carryOut s now ds) = (r, w')) :
    ∃ k t t', Progress (filing s now) k files ds w.tree t ∧
      t.Steady {(filing s now).summaryPath.place} t' ∧ w' = { w with tree := t' } ∧
      k ≤ files.length ∧ ∀ o, r = .ok o → k = files.length := by
  rcases World.exec_bind_cases h with ⟨e, happly, rfl⟩ | ⟨rs, w₁, happly, hk⟩
  · obtain ⟨k, t, hprogress, rfl, hle, -⟩ :=
      (filing s now).applyAll_progress hdirs hreal ha hw hl hfiles happly
    exact ⟨k, t, t, hprogress, .refl _ t, rfl, hle, fun _ ho => by cases ho⟩
  · obtain ⟨k, t, hprogress, rfl, hle, hall⟩ :=
      (filing s now).applyAll_progress hdirs hreal ha hw hl hfiles happly
    have hk' := hall rs rfl
    rcases World.exec_bind_cases hk with ⟨e, hwrite, -⟩ | ⟨_, w₂, hwrite, hlast⟩
    · obtain ⟨t', hsteady, rfl⟩ := ((filing s now).writeSummary_keeps _).exec hwrite
      exact ⟨k, t, t', hprogress, hsteady, rfl, hle, fun _ _ => hk'⟩
    · obtain ⟨t', hsteady, rfl⟩ := ((filing s now).writeSummary_keeps _).exec hwrite
      cases hlast
      exact ⟨k, t, t', hprogress, hsteady, rfl, hle, fun _ _ => hk'⟩

/-! ### Runs -/

/-- The decisions about the first `k` proposals were carried out, and then perhaps the summary was
written. -/
structure Reached (s : Settings) (now : RunClock) (files : List ProposalFile) (ds : List Decision)
    (k : Nat) (t t' : Tree) : Prop where
  distinct : s.dirs.Distinct
  wellFormed : t.WellFormed
  linkFree : t.LinkFree
  assignment : Assignment s.dirs.inbox files ds
  stands : ∀ p ∈ files, ∃ bytes, t.entry? p.path.place = some (.file bytes p.modified)
  carried : ∃ t₁, Progress (Run.filing s now) k files ds t t₁ ∧
    t₁.Steady {(Run.filing s now).summaryPath.place} t'

namespace Reached

variable {ds : List Decision} {k : Nat} {t t' : Tree} {n : Name} {e : Entry}
  {x : ProposalFile × Decision}

theorem sound (h : Reached s now files ds k t t') : t'.WellFormed ∧ t'.LinkFree := by
  obtain ⟨t₁, hprogress, hsteady⟩ := h.carried
  obtain ⟨hw, hl⟩ := hprogress.sound h.wellFormed h.linkFree
  exact ⟨hsteady.wellFormed hw, hsteady.linkFree hl⟩

/-- After the last decision, nothing in the inbox and in the directories that files are moved to
changes. -/
theorem settled (h : Reached s now files ds k t t') : ∃ t₁, Progress (Run.filing s now) k files ds t t₁ ∧
    ∀ q : Path, q.place ≠ s.dirs.log.place → ∀ n,
      (∀ e, t₁.entry? (q.place ++ [n]) = some e → t'.entry? (q.place ++ [n]) = some e) ∧
      (t'.FileAt (q.place ++ [n]) → t₁.FileAt (q.place ++ [n])) := by
  obtain ⟨t₁, hprogress, hsteady⟩ := h.carried
  refine ⟨t₁, hprogress, fun q hq n => ?_⟩
  have hgrows := hsteady.grows (hprogress.sound h.wellFormed h.linkFree).2
  obtain ⟨i, hi⟩ := (Run.filing s now).place_summaryPath
  have hapart : q.place ++ [n] ∉ ({(Run.filing s now).summaryPath.place} : Set Location) := by
    rw [Set.mem_singleton_iff, hi]
    exact Path.place_append_ne hq n i
  exact ⟨fun e he => hgrows.keeps hapart he, hgrows.fileAt hapart⟩

/-- The proposals that were not reached are where they were. -/
theorem stays (h : Reached s now files ds k t t') {p : ProposalFile} (hp : p ∈ files.drop k)
    (he : t.entry? p.path.place = some e) : t'.entry? p.path.place = some e := by
  obtain ⟨t₁, hprogress, hsettled⟩ := h.settled
  obtain ⟨d, hmem⟩ := h.assignment.exists_of_mem (List.mem_of_mem_drop hp)
  obtain ⟨n, hn⟩ := h.assignment.assigned hmem
  have hkept := hprogress.kept h.distinct h.assignment hp he
  rw [hn.place_path] at hkept ⊢
  exact (hsettled s.dirs.inbox h.distinct.inbox.2 n).1 e hkept

/-- The proposals that were reached have left the inbox and are where their decisions take them. -/
theorem moves (h : Reached s now files ds k t t') (hx : x ∈ (files.zip ds).take k)
    (hn : Assigned s.dirs.inbox x.1 n x.2) (he : t.entry? x.1.path.place = some e) :
    ¬ t'.FileAt x.1.path.place ∧ t'.entry? ((s.dirs.target x.2.action).place ++ [n]) = some e := by
  obtain ⟨t₁, hprogress, hsettled⟩ := h.settled
  obtain ⟨hgone, harrived⟩ := hprogress.moved h.distinct h.assignment
    (fun p hp => (h.stands p hp).imp fun _ he => ⟨_, he⟩) hx
  constructor
  · rw [hn.place_path] at hgone ⊢
    exact fun hf => hgone ((hsettled s.dirs.inbox h.distinct.inbox.2 n).2 hf)
  · refine (hsettled (s.dirs.target x.2.action) (h.distinct.target _).2.2 n).1 e ?_
    rw [← he, ← harrived, Assigned.place_destination hn]
    rfl

/-- What is in the inbox stays, unless it is a proposal that was reached. -/
theorem keeps_inbox (h : Reached s now files ds k t t')
    (hapart : ∀ x ∈ (files.zip ds).take k, s.dirs.inbox.place ++ [n] ≠ x.1.path.place)
    (he : t.entry? (s.dirs.inbox.place ++ [n]) = some e) :
    t'.entry? (s.dirs.inbox.place ++ [n]) = some e := by
  obtain ⟨t₁, hprogress, hsettled⟩ := h.settled
  refine (hsettled s.dirs.inbox h.distinct.inbox.2 n).1 e (hprogress.keeps (fun x hx => ?_) he)
  obtain ⟨m, hm⟩ := h.assignment.assigned (List.mem_of_mem_take hx)
  obtain ⟨hdest, hincident⟩ := Assigned.inbox_apart (f := Run.filing s now) hm h.distinct n
  exact ⟨hapart x hx, hdest, hincident⟩

/-- What is in a directory that files are moved to stays, unless a proposal that was reached takes its
place. -/
theorem keeps_target (h : Reached s now files ds k t t') {a : Action}
    (hapart : ∀ x ∈ (files.zip ds).take k,
      (s.dirs.target a).place ++ [n] ≠ ((Run.filing s now).destination x.2).place)
    (he : t.entry? ((s.dirs.target a).place ++ [n]) = some e) :
    t'.entry? ((s.dirs.target a).place ++ [n]) = some e := by
  obtain ⟨t₁, hprogress, hsettled⟩ := h.settled
  refine (hsettled (s.dirs.target a) (h.distinct.target a).2.2 n).1 e
    (hprogress.keeps (fun x hx => ?_) he)
  obtain ⟨m, hm⟩ := h.assignment.assigned (List.mem_of_mem_take hx)
  obtain ⟨hsource, hincident⟩ := Assigned.target_apart (f := Run.filing s now) hm h.distinct a n
  exact ⟨hsource, hapart x hx, hincident⟩

end Reached

/-- Every real run that scans the inbox comes to some point, however it ends: to the last decision if
it succeeds, and nowhere if the gate blocks it. -/
theorem Run.run_reached (hreal : s.mode = .real) (hdirs : s.dirs.Distinct)
    (hw : w.tree.WellFormed) (hl : w.tree.LinkFree)
    (hsurvey : w.exec (survey s now) = (.ok files, w₁)) {r : Except RunError Outcome}
    (hrun : w.exec (run s (gate.map PolicyGate.review) now) = (r, w')) :
    ∃ k ds, Reached s now files ds k w₁.tree w'.tree ∧ k ≤ files.length ∧
      (k = 0 ∨ ∃ w₂, w₁.exec (reviewed s (gate.map PolicyGate.review)
        (files.map (decideOn s.gates now))) = (.ok ds, w₂)) ∧
      (∀ o, r = .ok o → k = files.length) ∧
      (∀ file action e, r = .error (.gate file action e) → k = 0) := by
  obtain ⟨-, ⟨t₁, hext, rfl⟩, ns, hscan⟩ := survey_ok hw hsurvey
  have hw₁ := hext.wellFormed hw
  have hl₁ := hext.linkFree hl
  have hstands := hscan.stands hl₁
  rw [run_of_survey gate hsurvey] at hrun
  rcases World.exec_bind_cases hrun with ⟨e, hreview, rfl⟩ | ⟨ds, w₂, hreview, hcarry⟩
  · have hlocal : Assignment s.dirs.inbox files (files.map (decideOn s.gates now)) :=
      ⟨hscan.assigned s.gates now, hscan.places_nodup⟩
    rw [(reviewed_exec hreal hscan hreview).1]
    refine ⟨0, _, ⟨hdirs, hw₁, hl₁, hlocal, hstands, _, .start, .refl _ _⟩, Nat.zero_le _,
      Or.inl rfl, ?_, ?_⟩
    · intro o ho
      cases ho
    · intro file action e' _
      rfl
  · obtain ⟨htree, hassign⟩ := reviewed_exec hreal hscan hreview
    have ha := hassign ds rfl
    have hfiles : ∀ p ∈ files, w₂.tree.FileAt p.path.place := by
      rw [htree]
      exact fun p hp => (hstands p hp).imp fun _ he => ⟨_, he⟩
    rcases hr : w₂.exec (carryOut s now ds) with ⟨r', w₃⟩
    rw [exec_storing, hr, Prod.mk.injEq] at hcarry
    obtain ⟨rfl, rfl⟩ := hcarry
    obtain ⟨k, t, t', hprogress, hsteady, rfl, hle, hall⟩ := carryOut_progress hreal hdirs ha
      (htree ▸ hw₁) (htree ▸ hl₁) hfiles hr
    rw [htree] at hprogress
    refine ⟨k, ds, ⟨hdirs, hw₁, hl₁, ha, hstands, t, hprogress, hsteady⟩, hle,
      Or.inr ⟨w₂, hreview⟩, ?_, ?_⟩
    · intro o ho
      cases r' with
      | ok o' => exact hall o' rfl
      | error e => cases ho
    · intro file action e he
      cases r' with
      | ok o => cases he
      | error e => cases he

end ProposalReview
