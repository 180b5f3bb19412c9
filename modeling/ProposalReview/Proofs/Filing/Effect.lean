import Mathlib
import ProposalReview.Proofs.Filing.Program
import ProposalReview.Proofs.Filing.Readback
import ProposalReview.Run
/-!
What the parts of a run do to a tree.

Setting up only adds to it, scanning leaves it alone, and filing an incident or writing the summary
changes nothing outside the path that is written to, but for new directories. All this holds however a
part ends.
-/

namespace ProposalReview

variable {α : Type} {T : Tree → Tree → Prop} [IsPreorder Tree T]

/-- Whether a relation allows a directory to be made at a path. -/
def MayMake (T : Tree → Tree → Prop) (p : Path) : Prop :=
  ∀ t t', t.makeDirectory p = .ok t' → T t t'

/-- Whether a relation allows directories to be made. -/
def AllowsMaking (T : Tree → Tree → Prop) : Prop := ∀ t t' p, t.makeDirectory p = .ok t' → T t t'

theorem AllowsMaking.mayMake {T : Tree → Tree → Prop} (hT : AllowsMaking T) (p : Path) :
    MayMake T p := fun t t' => hT t t' p

namespace Filesystem

theorem makeDirectory_keeps {p : Path} (hT : MayMake T p) :
    Keeps T (makeDirectory p : StateM World _) :=
  Keeps.change fun w t h => hT w.tree t h

theorem makeChain_keeps {ps : List Path} (hT : ∀ p ∈ ps, MayMake T p) :
    Keeps T (makeChain ps : StateM World _) :=
  Keeps.composable.makeChain fun p hp => makeDirectory_keeps (hT p hp)

theorem makeDirectories_keeps {p : Path} (hT : ∀ q ∈ p :: p.above, MayMake T q) :
    Keeps T (makeDirectories p : StateM World _) :=
  Keeps.composable.makeDirectories fun q hq => makeDirectory_keeps (hT q hq)

end Filesystem

/-! ### Setting up -/

/-- A relation that allows a directory and those above it to be made is kept when they are. -/
theorem Filing.create_keeps_of {p : Path} (hT : ∀ q ∈ p :: p.above, MayMake T q) :
    Keeps T (create p : ExceptT StoreError (StateM World) Unit).run :=
  Keeps.attempt (Filesystem.makeDirectories_keeps hT)

theorem Filing.create_keeps (hT : AllowsMaking T) (p : Path) :
    Keeps T (create p : ExceptT StoreError (StateM World) Unit).run :=
  create_keeps_of fun q _ => hT.mayMake q

theorem Filing.prepare_keeps {f : Filing}
    (hT : ∀ p ∈ [f.dirs.inbox, f.dirs.applied, f.dirs.demoted, f.dirs.log],
      ∀ q ∈ p :: p.above, MayMake T q) :
    Keeps T (f.prepare : ExceptT StoreError (StateM World) Unit).run := by
  have hcreate : ∀ p ∈ [f.dirs.inbox, f.dirs.applied, f.dirs.demoted, f.dirs.log],
      Keeps T (create p : ExceptT StoreError (StateM World) Unit).run :=
    fun p hp => create_keeps_of (hT p hp)
  refine Keeps.exceptBind (hcreate _ (by simp)) fun _ => ?_
  refine Keeps.exceptBind (hcreate _ (by simp)) fun _ => ?_
  exact Keeps.exceptBind (hcreate _ (by simp)) fun _ => hcreate _ (by simp)

theorem allowsMaking_extends : AllowsMaking Tree.Extends := fun _ _ _ => Tree.makeDirectory_extends

theorem allowsMaking_grows (S : Set Location) : AllowsMaking (Tree.Grows S) :=
  fun _ _ _ h => (Tree.makeDirectory_grows h).mono (Set.empty_subset S)

theorem allowsMaking_steady (S : Set Location) : AllowsMaking (Tree.Steady S) :=
  fun _ _ _ h => (Tree.makeDirectory_steady h).mono (Set.empty_subset S)

/-- Whether a relation allows a sample to be written where nothing is. -/
def MaySeed (T : Tree → Tree → Prop) (inbox : Path) (sample : String × String) : Prop :=
  ∀ t t' time, t.isPresent (inbox.join (.ofString sample.1)) = false →
    t.write (inbox.join (.ofString sample.1)) (Text.encodeString sample.2) time = .ok t' → T t t'

theorem Samples.valid_name : ∀ x ∈ all, Name.Valid (Text.encodeString x.1) := by decide

/-- Going through the samples, one that is there is passed over; one that is not is written, and counted
with those after it, unless that fails. -/
theorem Samples.seedEach_cons {inbox : Path} {sample : String × String} {rest : List (String × String)}
    {w w' : World} {r : Except StoreError Nat}
    (h : w.exec (seedEach inbox (sample :: rest)) = (r, w')) :
    (w.tree.isPresent (inbox.join (.ofString sample.1)) ∧
        w.exec (seedEach inbox rest) = (r, w')) ∨
      w.tree.isPresent (inbox.join (.ofString sample.1)) = false ∧
        ((∃ e, r = .error e ∧ w' = w) ∨ ∃ t r',
          w.tree.write (inbox.join (.ofString sample.1)) (Text.encodeString sample.2) w.now = .ok t ∧
          World.exec { w with tree := t } (seedEach inbox rest) = (r', w') ∧ r = r'.map (· + 1)) := by
  obtain ⟨name, text⟩ := sample
  rw [seedEach, World.exec_bind, World.exec_lift] at h
  simp only at h
  split at h
  · next hpresent => exact .inl ⟨hpresent, h⟩
  · next habsent =>
    refine .inr ⟨Bool.eq_false_iff.mpr habsent, ?_⟩
    rcases World.exec_bind_cases h with ⟨e, hwrite, rfl⟩ | ⟨_, w₁, hwrite, h⟩
    · rcases World.change_cases hwrite with ⟨_, -, hdone, -⟩ | ⟨_, -, -, rfl⟩
      · cases hdone
      · exact .inl ⟨e, rfl, rfl⟩
    · rcases World.change_cases hwrite with ⟨t, ht, -, rfl⟩ | ⟨_, -, hfail, -⟩
      · rcases World.exec_bind_cases h with ⟨e, hrest, rfl⟩ | ⟨k, w₂, hrest, hlast⟩
        · exact .inr ⟨t, .error e, ht, hrest, rfl⟩
        · cases hlast
          exact .inr ⟨t, .ok k, ht, hrest, rfl⟩
      · cases hfail

theorem Samples.seedEach_cons_ok {inbox : Path} {sample : String × String}
    {rest : List (String × String)} {w w' : World} {n : Nat}
    (h : w.exec (seedEach inbox (sample :: rest)) = (.ok n, w')) :
    (w.tree.isPresent (inbox.join (.ofString sample.1)) ∧
        w.exec (seedEach inbox rest) = (.ok n, w')) ∨
      w.tree.isPresent (inbox.join (.ofString sample.1)) = false ∧ ∃ t k,
        w.tree.write (inbox.join (.ofString sample.1)) (Text.encodeString sample.2) w.now = .ok t ∧
        World.exec { w with tree := t } (seedEach inbox rest) = (.ok k, w') ∧ n = k + 1 := by
  rcases seedEach_cons h with h | ⟨habsent, ⟨_, herr, -⟩ | ⟨t, r, hwrite, h, hn⟩⟩
  · exact .inl h
  · cases herr
  · cases r with
    | error e => cases hn
    | ok k => exact .inr ⟨habsent, t, k, hwrite, h, Except.ok.inj hn⟩

theorem Samples.seedEach_exec {inbox : Path} {samples : List (String × String)}
    (hT : ∀ x ∈ samples, MaySeed T inbox x) {w w' : World} {r : Except StoreError Nat}
    (h : w.exec (seedEach inbox samples) = (r, w')) :
    ∃ t, T w.tree t ∧ w' = { w with tree := t } := by
  induction samples generalizing w w' r with
  | nil =>
    cases h
    exact ⟨w.tree, refl_of T _, rfl⟩
  | cons sample rest ih =>
    obtain ⟨hsample, hrest⟩ := List.forall_mem_cons.mp hT
    rcases seedEach_cons h with ⟨-, h⟩ | ⟨habsent, ⟨e, -, rfl⟩ | ⟨t, r', hwrite, h, -⟩⟩
    · exact ih hrest h
    · exact ⟨w'.tree, refl_of T _, rfl⟩
    · obtain ⟨t', ht', rfl⟩ := ih hrest h
      exact ⟨t', trans_of T (hsample w.tree t w.now habsent hwrite) ht', rfl⟩

/-- Whatever becomes of it, going through the samples only adds to the tree. -/
theorem Samples.seedEach_extends {inbox : Path} {samples : List (String × String)} {w w' : World}
    {r : Except StoreError Nat} (h : w.exec (seedEach inbox samples) = (r, w')) :
    w.tree.Extends w'.tree := by
  obtain ⟨t, hext, rfl⟩ := seedEach_exec (T := Tree.Extends)
    (fun _ _ _ _ _ habsent hwrite => Tree.write_extends habsent hwrite) h
  exact hext

/-- Setting up keeps a relation that allows its directories to be made, and the samples to be written
where nothing is. -/
theorem Run.setUp_keeps_of {s : Settings} (now : RunClock)
    (hmake : ∀ p ∈ [s.dirs.inbox, s.dirs.applied, s.dirs.demoted, s.dirs.log],
      ∀ q ∈ p :: p.above, MayMake T q)
    (hseed : s.seedSamples → ∀ x ∈ Samples.all, MaySeed T s.dirs.inbox x) :
    Keeps T (setUp s now : ExceptT StoreError (StateM World) Unit).run := by
  have hprepare : Keeps T ((filing s now).prepare : ExceptT StoreError (StateM World) Unit).run :=
    Filing.prepare_keeps hmake
  rw [setUp]
  split
  · next hwanted =>
    refine Keeps.exceptBind ?_ fun _ => hprepare
    exact Keeps.exceptBind (Filing.create_keeps_of (hmake _ (by simp))) fun _ w =>
      Samples.seedEach_exec (hseed hwanted) rfl
  · exact hprepare

/-- Setting up adds to the tree only; a sample never replaces a file. -/
theorem Run.setUp_keeps (s : Settings) (now : RunClock) :
    Keeps Tree.Extends (setUp s now : ExceptT StoreError (StateM World) Unit).run :=
  setUp_keeps_of now (fun _ _ q _ => allowsMaking_extends.mayMake q)
    fun _ _ _ _ _ _ habsent h => Tree.write_extends habsent h

/-- If no samples are wanted, only directories are new. -/
theorem Run.setUp_grows {s : Settings} (hseed : s.seedSamples = false) (now : RunClock) :
    Keeps (Tree.Grows ∅) (setUp s now : ExceptT StoreError (StateM World) Unit).run := by
  refine setUp_keeps_of now (fun _ _ q _ => (allowsMaking_grows ∅).mayMake q) fun hwanted => ?_
  rw [hseed] at hwanted
  cases hwanted

/-! ### Scanning -/

theorem Inbox.proposalNames_keeps (inbox : Path) (ns : List Name) :
    Keeps Eq (proposalNames inbox ns : StateM World (List Name)) := by
  induction ns with
  | nil => exact Keeps.pure _
  | cons n ns ih =>
    rw [proposalNames]
    split
    · refine (Keeps.look _).bind fun b => ?_
      split
      · exact ih.bind fun _ => Keeps.pure _
      · exact ih
    · exact ih

theorem Inbox.readProposals_keeps (inbox : Path) (ns : List Name) :
    Keeps Eq (readProposals inbox ns : ExceptT StoreError (StateM World) _).run := by
  induction ns with
  | nil => exact Keeps.pure _
  | cons n ns ih =>
    refine Keeps.exceptBind ?_ fun _ => Keeps.exceptBind ih fun _ => Keeps.pure _
    exact Keeps.exceptBind (Keeps.attempt (Keeps.look _)) fun _ =>
      Keeps.exceptBind (Keeps.attempt (Keeps.look _)) fun _ => Keeps.pure _

/-- A scan leaves the tree as it was. -/
theorem Inbox.scan_keeps (inbox : Path) :
    Keeps Eq (scan inbox : ExceptT StoreError (StateM World) _).run :=
  Keeps.exceptBind (Keeps.attempt (Keeps.look _)) fun ns =>
    Keeps.exceptBind ((proposalNames_keeps inbox ns).bind fun _ => Keeps.pure _) fun _ =>
      readProposals_keeps inbox _

/-! ### Incidents and the summary -/

theorem Filesystem.write_keeps (p : Path) (bytes : Bytes) :
    Keeps (Tree.Steady {p.place}) (write p bytes : StateM World _) :=
  Keeps.change fun _ _ h => Tree.write_steady h

/-- Where a decision writes its incident: nowhere if there is no reason against the proposal. -/
def Filing.incidentPlaces (f : Filing) (d : Decision) : Set Location :=
  {l | d.reasons ≠ [] ∧ l = (f.incidentPath d).place}

theorem Filing.incidentPlaces_subset (f : Filing) (d : Decision) :
    f.incidentPlaces d ⊆ {(f.incidentPath d).place} := fun _ hl => hl.2

theorem Filing.fileIncident_keeps (f : Filing) (d : Decision) :
    Keeps (Tree.Steady (f.incidentPlaces d))
      (f.fileIncident d : ExceptT StoreError (StateM World) Unit).run := by
  rw [fileIncident]
  split
  · exact Keeps.pure _
  · next hreasons =>
    have hplace : {(f.incidentPath d).place} ⊆ f.incidentPlaces d :=
      Set.singleton_subset_iff.mpr ⟨by simpa using hreasons, rfl⟩
    exact Keeps.exceptBind (create_keeps (allowsMaking_steady _) _) fun _ =>
      Keeps.attempt ((Filesystem.write_keeps _ _).mono fun h => h.mono hplace)

theorem Filing.writeSummary_keeps (f : Filing) (s : Summary) :
    Keeps (Tree.Steady {f.summaryPath.place})
      (f.writeSummary s : ExceptT StoreError (StateM World) Path).run :=
  Keeps.exceptBind (create_keeps (allowsMaking_steady _) _) fun _ =>
    Keeps.exceptBind (Keeps.attempt (Filesystem.write_keeps _ _)) fun _ => Keeps.pure _

/-- Writing the summary fails before it is written, or ends with it; what creating the directory keeps is
kept until then. -/
theorem Filing.writeSummary_exec {T : Tree → Tree → Prop} {f : Filing} {x : Summary} {w w' : World}
    {r : Except StoreError Path}
    (hcreate : Keeps T (create f.dirs.log : ExceptT StoreError (StateM World) Unit).run)
    (h : w.exec (f.writeSummary x) = (r, w')) :
    ∃ t, T w.tree t ∧
      ((w' = { w with tree := t } ∧ ∃ e, r = .error e) ∨
        ∃ t', t.write f.summaryPath (Text.encodeString x.text) w.now = .ok t' ∧
          w' = { w with tree := t' } ∧ r = .ok f.summaryPath) := by
  rcases World.exec_bind_cases h with ⟨e, hc, rfl⟩ | ⟨_, w₁, hc, h⟩
  · obtain ⟨t, ht, rfl⟩ := hcreate.exec hc
    exact ⟨t, ht, Or.inl ⟨rfl, e, rfl⟩⟩
  obtain ⟨t, ht, rfl⟩ := hcreate.exec hc
  refine ⟨t, ht, ?_⟩
  rcases World.exec_bind_cases h with ⟨e, hwrite, rfl⟩ | ⟨_, w₂, hwrite, hlast⟩
  · rcases World.change_cases hwrite with ⟨t', -, hok, -⟩ | ⟨cause, -, -, rfl⟩
    · cases hok
    · exact Or.inl ⟨rfl, e, rfl⟩
  · rcases World.change_cases hwrite with ⟨t', hwritten, -, rfl⟩ | ⟨cause, -, herr, -⟩
    · cases hlast
      exact Or.inr ⟨t', hwritten, rfl, rfl⟩
    · cases herr

theorem Filing.create_exec {w w' : World} {p : Path} {r : Except StoreError Unit} (h : w.exec (create p) = (r, w')) :
    (∃ t, w.tree.Grows ∅ t ∧ w' = { w with tree := t }) ∧
      (r = .ok () ∨ ∃ cause, r = .error ⟨.creating, p, cause⟩) := by
  refine ⟨(create_keeps (allowsMaking_grows ∅) p).exec h, ?_⟩
  rw [create, World.exec_attempt, Prod.mk.injEq] at h
  obtain ⟨rfl, -⟩ := h
  cases ((Filesystem.makeDirectories p : StateM World _).run w).1 with
  | ok _ => exact Or.inl rfl
  | error cause => exact Or.inr ⟨cause, rfl⟩

/-- Filing the incident of a decision with a reason succeeds, and then the incident can be read; or
it fails to make the incident directory or to write the incident. -/
theorem Filing.fileIncident_exec {f : Filing} {d : Decision} {w w' : World} (hreasons : d.reasons ≠ []) {r : Except StoreError Unit}
    (h : w.exec (f.fileIncident d) = (r, w')) :
    (r = .ok () ∧ w'.tree.content (f.incidentPath d)
        = .ok (Text.encodeString (Incident.text d f.now f.mode.isDryRun))) ∨
      (w.tree.Grows ∅ w'.tree ∧ ∃ cause, r = .error ⟨.creating, f.dirs.incidents, cause⟩ ∨
        r = .error ⟨.writing, f.incidentPath d, cause⟩) := by
  rw [fileIncident, if_neg (by simpa using hreasons)] at h
  rcases World.exec_bind_cases h with ⟨e, hcreate, rfl⟩ | ⟨_, w₁, hcreate, hwrite⟩
  · obtain ⟨⟨t, hgrows, rfl⟩, hok | ⟨cause, herr⟩⟩ := create_exec hcreate
    · cases hok
    · cases herr
      exact Or.inr ⟨hgrows, cause, Or.inl rfl⟩
  · obtain ⟨⟨t, hgrows, rfl⟩, -⟩ := create_exec hcreate
    rcases World.change_cases hwrite with ⟨t', hwritten, rfl, rfl⟩ | ⟨cause, -, rfl, rfl⟩
    · exact Or.inl ⟨rfl, Tree.content_write hwritten⟩
    · exact Or.inr ⟨hgrows, cause, Or.inr rfl⟩

/-! ### Carrying out -/

/-- Any change of a tree. -/
def Tree.Changes (_ _ : Tree) : Prop := True

instance : IsPreorder Tree Tree.Changes where
  refl _ := trivial
  trans _ _ _ _ _ := trivial

theorem Filing.move_eq (f : Filing) (d : Decision) :
    (f.move d : ExceptT StoreError (StateM World) Unit) =
      if d.action = .hold then pure ()
      else Filesystem.attempt .moving d.sourcePath
        (Filesystem.rename d.sourcePath (f.destination d)) := by
  rw [move, World.moveFile_eq]

theorem Filing.applyAll_keeps (f : Filing) (ds : List Decision) :
    Keeps Tree.Changes (f.applyAll ds : ExceptT StoreError (StateM World) (List Record)).run := by
  induction ds with
  | nil => exact Keeps.pure _
  | cons d ds ih =>
    have hmove : Keeps Tree.Changes (f.move d : ExceptT StoreError (StateM World) Unit).run := by
      rw [move_eq]
      split
      · exact Keeps.pure _
      · exact Keeps.attempt (Keeps.change fun _ _ _ => trivial)
    have hincident := (f.fileIncident_keeps d).mono fun _ => (trivial : Tree.Changes _ _)
    refine Keeps.exceptBind ?_ fun _ => Keeps.exceptBind ih fun _ => Keeps.pure _
    rw [apply]
    split
    · exact Keeps.exceptBind hmove fun _ => Keeps.exceptBind hincident fun _ => Keeps.pure _
    · exact Keeps.pure _

/-- Carrying out decisions only works on the tree. -/
theorem Run.carryOut_keeps (s : Settings) (now : RunClock) (ds : List Decision) :
    Keeps Tree.Changes (carryOut s now ds : ExceptT StoreError (StateM World) Outcome).run := by
  refine Keeps.exceptBind ((filing s now).applyAll_keeps ds) fun _ => ?_
  exact Keeps.exceptBind (((filing s now).writeSummary_keeps _).mono fun _ => trivial) fun _ =>
    Keeps.pure _

end ProposalReview
