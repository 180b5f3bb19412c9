import Mathlib
import ProposalReview.Proofs.Movement
import ProposalReview.Proofs.Outcome
/-!
What a dry run leaves behind.

A dry run never asks the gate and never moves a file. However it ends, everything that stood in the
tree stands there unchanged, but for an older summary of the same name; new are at most directories
on the way to the inbox, the applied, the demoted and the log directory, samples where nothing was,
and, if the run succeeds, its summary.
-/

namespace ProposalReview

/-! ### Gains -/

namespace Tree

variable {D : Set Location} {F : Location → Bytes → Prop} {t t₁ t₂ t' : Tree} {p : Path}

/-- What a change may add to a tree without links: directories at some locations, and files with some
contents at some others. All that stood in the tree stays. -/
structure Gains (D : Set Location) (F : Location → Bytes → Prop) (t t' : Tree) : Prop where
  linkFree : t.LinkFree → t'.LinkFree
  entry : t.LinkFree → ∀ l, t'.entry? l = t.entry? l ∨ t.entry? l = none ∧
    (l ∈ D ∧ t'.entry? l = some .directory ∨
      ∃ bytes time, F l bytes ∧ t'.entry? l = some (.file bytes time))

theorem Gains.refl (D : Set Location) (F : Location → Bytes → Prop) (t : Tree) : t.Gains D F t :=
  ⟨id, fun _ _ => Or.inl rfl⟩

theorem Gains.trans (h : t.Gains D F t₁) (h' : t₁.Gains D F t₂) : t.Gains D F t₂ := by
  refine ⟨h'.linkFree ∘ h.linkFree, fun hl l => ?_⟩
  rcases h'.entry (h.linkFree hl) l with hsame | ⟨hnone, hnew⟩
  · rw [hsame]
    exact h.entry hl l
  · -- what is new after the second change was not there after the first one
    rcases h.entry hl l with hsame | ⟨-, ⟨-, hdir⟩ | ⟨_, _, -, hfile⟩⟩
    · exact Or.inr ⟨hsame ▸ hnone, hnew⟩
    · simp [hnone] at hdir
    · simp [hnone] at hfile

instance : IsPreorder Tree (Gains D F) where
  refl := Gains.refl D F
  trans _ _ _ := Gains.trans

theorem gains_put {l : Location} {e : Entry} (hl : l ≠ []) (hfree : t.entry? l = none)
    (he : ∀ target, e ≠ .link target)
    (hnew : t.LinkFree → l ∈ D ∧ e = .directory ∨ ∃ bytes time, F l bytes ∧ e = .file bytes time) :
    t.Gains D F (t.put l e) := by
  refine ⟨fun hf => hf.put hl he, fun hf m => ?_⟩
  rw [entry?_put hl]
  split_ifs with hm
  · subst hm
    rcases hnew hf with ⟨hD, rfl⟩ | ⟨bytes, time, hF, rfl⟩
    · exact Or.inr ⟨hfree, Or.inl ⟨hD, rfl⟩⟩
    · exact Or.inr ⟨hfree, Or.inr ⟨bytes, time, hF, rfl⟩⟩
  · exact Or.inl rfl

theorem makeDirectory_gains (hp : p.place ∈ D) (h : t.makeDirectory p = .ok t') : t.Gains D F t' := by
  obtain ⟨l, hl, hfree, rfl⟩ := makeDirectory_ok h
  refine gains_put ?_ hfree (by simp) fun hf => Or.inl ⟨hf.locateName hl ▸ hp, rfl⟩
  rintro rfl
  simp at hfree

theorem write_gains {bytes : Bytes} {now : Instant} (hp : F p.place bytes)
    (habsent : t.isPresent p = false) (h : t.write p bytes now = .ok t') : t.Gains D F t' := by
  obtain ⟨l, hl, hdir, rfl⟩ := write_ok h
  have hfree := entry?_of_absent hl habsent
  refine gains_put ?_ hfree (by simp) fun hf => Or.inr ⟨bytes, now, hf.locate hl ▸ hp, rfl⟩
  rintro rfl
  simp at hdir

end Tree

/-! ### What a dry run may add -/

/-- The locations on the way to the directories that a run makes. -/
def Directories.Ways (dirs : Directories) : Set Location :=
  {l | ∃ p ∈ [dirs.inbox, dirs.applied, dirs.demoted, dirs.log], l ∈ p.way}

/-- Whether samples are wanted, and one with some content belongs at a location. -/
def Settings.Seeds (s : Settings) (l : Location) (bytes : Bytes) : Prop :=
  s.seedSamples ∧ ∃ x ∈ Samples.all,
    l = s.dirs.inbox.place ++ [Text.encodeString x.1] ∧ bytes = Text.encodeString x.2

namespace Run

variable {s : Settings} {now : RunClock} {w w' : World} {ds : List Decision}

theorem mayMake_ways {dirs : Directories} {F : Location → Bytes → Prop} {p : Path}
    (hp : p ∈ [dirs.inbox, dirs.applied, dirs.demoted, dirs.log]) :
    ∀ q ∈ p :: p.above, MayMake (Tree.Gains dirs.Ways F) q :=
  fun _ hq _ _ h => Tree.makeDirectory_gains ⟨p, hp, Path.place_mem_way hq⟩ h

/-- A survey adds directories and samples only. -/
theorem survey_gains (s : Settings) (now : RunClock) :
    Keeps (Tree.Gains s.dirs.Ways s.Seeds)
      (survey s now : ExceptT RunError (StateM World) (List ProposalFile)).run := by
  refine survey_keeps_of (setUp_keeps_of now (fun p hp => mayMake_ways hp) ?_)
  intro hwanted x hx t t' time habsent h
  refine Tree.write_gains ⟨hwanted, x, hx, ?_, rfl⟩ habsent h
  exact Path.place_child (Samples.valid_name x hx) s.dirs.inbox

theorem carryOut_dryRun (hdry : s.mode = .dryRun) (w : World) (ds : List Decision) :
    w.exec (carryOut s now ds) = w.exec (do
      let path ← (filing s now).writeSummary (summaryOf s now ds)
      pure (⟨summaryOf s now ds, path⟩ : Outcome)) := by
  have hmode : (filing s now).mode = .dryRun := hdry
  rw [carryOut, World.exec_bind, Filing.applyAll_dryRun hmode]
  rfl

/-- A dry run fails with directories and samples added at most, or writes its summary after that. -/
theorem run_dryRun (hdry : s.mode = .dryRun) {gate : Option AnyGate} {r : Except RunError Outcome}
    (h : w.exec (run s gate now) = (r, w')) :
    ∃ t, w.tree.Gains s.dirs.Ways s.Seeds t ∧
      ((w' = { w with tree := t } ∧ ∃ e, r = .error e) ∨
        ∃ o t', t.write (filing s now).summaryPath (Text.encodeString o.summary.text) w.now = .ok t' ∧
          w' = { w with tree := t' } ∧ r = .ok o) := by
  rcases World.exec_bind_cases h with ⟨e, hsurvey, rfl⟩ | ⟨files, w₁, hsurvey, h⟩
  · obtain ⟨t, ht, rfl⟩ := (survey_gains s now).exec hsurvey
    exact ⟨t, ht, Or.inl ⟨rfl, e, rfl⟩⟩
  obtain ⟨t, ht, rfl⟩ := (survey_gains s now).exec hsurvey
  rw [reviewed_dryRun hdry, pure_bind, exec_storing, carryOut_dryRun hdry] at h
  rcases hwrite : World.exec _ _ with ⟨outcome, w₂⟩
  rw [hwrite, Prod.mk.injEq] at h
  obtain ⟨rfl, rfl⟩ := h
  have hcreate : Keeps (Tree.Gains s.dirs.Ways s.Seeds)
      (Filing.create s.dirs.log : ExceptT StoreError (StateM World) Unit).run :=
    Filing.create_keeps_of (mayMake_ways (by simp))
  rcases World.exec_bind_cases hwrite with ⟨e, hfault, rfl⟩ | ⟨path, w₃, hdone, hlast⟩
  · obtain ⟨t', ht', ⟨rfl, -⟩ | ⟨_, -, -, herr⟩⟩ := Filing.writeSummary_exec hcreate hfault
    · exact ⟨t', ht.trans ht', Or.inl ⟨rfl, _, rfl⟩⟩
    · cases herr
  · obtain ⟨t', ht', ⟨-, _, herr⟩ | ⟨t'', hwritten, rfl, -⟩⟩ := Filing.writeSummary_exec hcreate hdone
    · cases herr
    · rw [World.exec_pure, Prod.mk.injEq] at hlast
      obtain ⟨rfl, rfl⟩ := hlast
      exact ⟨t', ht.trans ht', Or.inr ⟨⟨summaryOf s now _, path⟩, t'', hwritten, rfl, rfl⟩⟩

/-- However a dry run ends, it has not asked the gate, whatever that would have done, and the tree is
the one from before but for missing directories on the way to the inbox, the applied, the demoted and
the log directory, for missing samples if they are wanted, and for the summary of a run that
succeeds. So no proposal has moved, and nothing was made for incidents. -/
theorem dry_run_only_adds (hdry : s.mode = .dryRun) (hl : w.tree.LinkFree) (gate : Option AnyGate)
    {r : Except RunError Outcome} (hrun : w.exec (run s gate now) = (r, w')) :
    let summary := s.dirs.log.place
      ++ [Text.encodeString ("pipeline_manager_dryrun_" ++ now.stamp ++ ".json")]
    w.exec (run s none now) = (r, w') ∧ w'.requests = w.requests ∧
      (∀ o, r = .ok o →
        w'.tree.entry? summary = some (.file (Text.encodeString o.summary.text) w.now)) ∧
      ∀ l, w'.tree.entry? l = w.tree.entry? l ∨
        (w.tree.entry? l = none ∧ (l ∈ s.dirs.Ways ∧ w'.tree.entry? l = some .directory ∨
          ∃ bytes time, s.Seeds l bytes ∧ w'.tree.entry? l = some (.file bytes time))) ∨
        (l = summary ∧ w.tree.entry? l ≠ some .directory ∧ r.isOk) := by
  intro summary
  have hplace : (filing s now).summaryPath.place = summary := by
    rw [Filing.place_summaryPath_eq]
    simp [filing, hdry, RunMode.isDryRun, summary]
  have hnone : w.exec (run s none now) = (r, w') := by
    rw [← hrun]
    simp only [run, reviewed_dryRun hdry]
  refine ⟨hnone, ?_⟩
  obtain ⟨t, hgains, hend⟩ := run_dryRun hdry hrun
  have hentry := hgains.entry hl
  rcases hend with ⟨rfl, e, rfl⟩ | ⟨o, t', hwritten, rfl, rfl⟩
  · refine ⟨rfl, by simp, ?_⟩
    intro l
    exact (hentry l).imp_right Or.inl
  · obtain ⟨hdir, hwrite⟩ := (hgains.linkFree hl).entry?_write hwritten
    rw [hplace] at hdir hwrite
    refine ⟨rfl, ?_, ?_⟩
    · intro o' ho
      cases ho
      simp [hwrite]
    · intro l
      by_cases hls : l = summary
      · -- what was set up before the summary has made no directory of what was none
        have hbefore : w.tree.entry? l ≠ some .directory := by
          intro hbefore
          rcases hentry l with h | ⟨h, -⟩
          · exact hdir (hls ▸ h.trans hbefore)
          · simp [h] at hbefore
        exact Or.inr (Or.inr ⟨hls, hbefore, rfl⟩)
      · simp only [hwrite, if_neg hls]
        exact (hentry l).imp_right Or.inl

/-- A dry run that is to write samples leaves the proposal in the inbox, whatever gate it is given, and
makes no directory for incidents. -/
theorem dry_run_only_adds_specimen :
    let s : Settings := { Specimen.settings with mode := .dryRun, seedSamples := true }
    let w : World := { tree := Specimen.twoProposals }
    let final := w.exec (run s (some promotesFirst.review) (.utc ⟨0, 0⟩))
    s.mode = .dryRun ∧ w.tree.LinkFree ∧ final.2.requests = [] ∧
      final.2.tree.entry? [[0x69], Specimen.name] = some (.file [1] ⟨0, 0⟩) ∧
      final.2.tree.entry? [[0x6e]] = none := by
  intro s w final
  have hdry : s.mode = .dryRun := rfl
  have hl : w.tree.LinkFree := Specimen.twoProposals_linkFree
  obtain ⟨-, hrequests, -, hfoot⟩ :=
    dry_run_only_adds hdry hl (some promotesFirst.review) (Prod.mk.eta (p := final)).symm
  refine ⟨hdry, hl, hrequests, ?_, ?_⟩
  · have hbefore : w.tree.entry? [[0x69], Specimen.name] = some (.file [1] ⟨0, 0⟩) := rfl
    rcases hfoot [[0x69], Specimen.name] with h | ⟨h, -⟩ | ⟨h, -⟩
    · exact h.trans hbefore
    · cases hbefore.symm.trans h
    · have hlog : s.dirs.log.place = [[0x6c]] := by decide
      simp [hlog] at h
  · have hbefore : w.tree.entry? [[0x6e]] = none := rfl
    have hway : ¬ ∃ p ∈ [s.dirs.inbox, s.dirs.applied, s.dirs.demoted, s.dirs.log],
        [[0x6e]] ∈ p.way := by decide
    rcases hfoot [[0x6e]] with h | ⟨-, ⟨h, -⟩ | ⟨_, _, ⟨-, x, -, h, -⟩, -⟩⟩ | ⟨h, -⟩
    · exact h.trans hbefore
    · exact absurd h hway
    · have hinbox : s.dirs.inbox.place = [[0x69]] := by decide
      simp [hinbox] at h
    · have hlog : s.dirs.log.place = [[0x6c]] := by decide
      simp [hlog] at h

end Run

end ProposalReview
