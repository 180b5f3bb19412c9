import Mathlib
import ProposalReview.Filing
import ProposalReview.Filing.Unreliable
import ProposalReview.Proofs.Filing.Program
import ProposalReview.Proofs.Filing.Readback
/-!
Programs in a world with troubles.

A call does what it does in a world without troubles, or it fails; then it has changed nothing, or has
written the first bytes of what it was to write. So creating a directory makes directories at most, however
it ends, and a file that could not be moved is where it was.
-/

namespace ProposalReview

/-! ### Trees -/

namespace Tree

variable {t t' : Tree} {p q source dest : Path} {bytes : Bytes} {now : Instant}

/-- Whether a file was taken from one path to another: it was renamed, or copied and then removed. -/
def Taken (t : Tree) (source dest : Path) (now : Instant) (t' : Tree) : Prop :=
  t.rename source dest = .ok t' ∨ ∃ t₁, t.copy source dest now = .ok t₁ ∧ t₁.remove source = .ok t'

/-- Whether a tree is as it was, or the first of some bytes were written to a path. -/
def PartWritten (t : Tree) (p : Path) (bytes : Bytes) (now : Instant) (t' : Tree) : Prop :=
  t' = t ∨ ∃ n, t.write p (bytes.take n) now = .ok t'

theorem partWritten_of_write (h : t.write p bytes now = .ok t') : t.PartWritten p bytes now t' :=
  .inr ⟨bytes.length, by rwa [List.take_length]⟩

/-- What is present stays so when something is written to any path. -/
theorem isPresent_of_write (h : t.write q bytes now = .ok t') (hp : t.isPresent p) :
    t'.isPresent p := by
  obtain ⟨e, he⟩ := isPresent_iff.mp hp
  obtain ⟨l, hl, he⟩ := find_ok he
  obtain ⟨m, hm, hdir, rfl⟩ := write_ok h
  have hfree := locate_writable hm hdir
  have hput : entry? (t.put m (.file bytes now)) l = if l = m then some (.file bytes now) else some e := by
    rw [entry?_put hfree.ne_nil, he]
  have hlocate : (t.put m (.file bytes now)).locate p = .ok l := (agreeBut_put hfree).locate hl
  refine isPresent_iff.mpr ?_
  split_ifs at hput
  · exact ⟨_, find_of_locate hlocate hput⟩
  · exact ⟨_, find_of_locate hlocate hput⟩

theorem PartWritten.isPresent (h : t.PartWritten q bytes now t') (hp : t.isPresent p) :
    t'.isPresent p := by
  rcases h with rfl | ⟨n, h⟩
  · exact hp
  · exact isPresent_of_write h hp

end Tree

namespace UnreliableWorld

variable {ε α β : Type} {u u' : UnreliableWorld} {p source dest : Path} {bytes : Bytes}

/-- What a program gives in a world with troubles, and the world that it leaves. -/
def exec (u : UnreliableWorld) (x : ExceptT ε (StateM UnreliableWorld) α) :
    Except ε α × UnreliableWorld := x.run.run u

theorem exec_bind_cases {x : ExceptT ε (StateM UnreliableWorld) α}
    {f : α → ExceptT ε (StateM UnreliableWorld) β} {r : Except ε β} (h : u.exec (x >>= f) = (r, u')) :
    (∃ e, u.exec x = (.error e, u') ∧ r = .error e) ∨
      ∃ a u₁, u.exec x = (.ok a, u₁) ∧ u₁.exec (f a) = (r, u') :=
  ExceptT.run_bind_cases h

theorem exec_bind_ok {x : ExceptT ε (StateM UnreliableWorld) α}
    {f : α → ExceptT ε (StateM UnreliableWorld) β} {a : α} (h : u.exec x = (.ok a, u')) :
    u.exec (x >>= f) = u'.exec (f a) := by
  rw [exec] at h
  rw [exec, ExceptT.run_bind, StateT.run_bind, h]
  rfl

theorem exec_bind_error {x : ExceptT ε (StateM UnreliableWorld) α}
    {f : α → ExceptT ε (StateM UnreliableWorld) β} {e : ε} (h : u.exec x = (.error e, u')) :
    u.exec (x >>= f) = (.error e, u') := by
  rw [exec] at h
  rw [exec, ExceptT.run_bind, StateT.run_bind, h]
  rfl

/-- A program that gives something of its own after another one ends as that one does. -/
theorem exec_bind_pure {x : ExceptT ε (StateM UnreliableWorld) α} {b : β} {r : Except ε β}
    (h : u.exec (x >>= fun _ => pure b) = (r, u')) :
    ∃ r₁, u.exec x = (r₁, u') ∧ r = r₁.map fun _ => b := by
  rcases exec_bind_cases h with ⟨e, hx, rfl⟩ | ⟨a, u₁, hx, hlast⟩
  · exact ⟨_, hx, rfl⟩
  · obtain ⟨rfl, rfl⟩ := Prod.mk.inj hlast
    exact ⟨_, hx, rfl⟩

theorem run_of_attempt {action : StoreAction} {x : StateM UnreliableWorld (Except FileFault α)}
    {r : Except StoreError α} (h : u.exec (Filesystem.attempt action p x) = (r, u')) :
    ∃ r₁, x.run u = (r₁, u') ∧ r = r₁.mapError fun cause => ⟨action, p, cause⟩ := by
  rw [exec, Filesystem.attempt, ExceptT.run_mk, StateT.run_bind] at h
  rcases hrun : x.run u with ⟨cause | a, u₁⟩
  · rw [hrun] at h
    cases h
    exact ⟨_, rfl, rfl⟩
  · rw [hrun] at h
    cases h
    exact ⟨_, rfl, rfl⟩

/-! ### Calls -/

theorem call_cases {x : StateM World α} {spoilt : Trouble → StateM World α} {a : α}
    (h : (call x spoilt).run u = (a, u')) :
    x.run u.toWorld = (a, u'.toWorld) ∨ ∃ trouble, (spoilt trouble).run u.toWorld = (a, u'.toWorld) := by
  obtain ⟨rfl, rfl⟩ := Prod.mk.inj h
  cases u.troubles with
  | nil => exact Or.inl rfl
  | cons trouble _ =>
    cases trouble with
    | none => exact Or.inl rfl
    | some trouble => exact Or.inr ⟨trouble, rfl⟩

/-- A change that can be refused is made, or fails and leaves everything as it was. -/
theorem refusable_cases {f : World → Except FileFault Tree} {r : Except FileFault Unit}
    (h : (call (World.change f) refuse).run u = (r, u')) :
    (r = .ok () ∧ ∃ t, f u.toWorld = .ok t ∧ u'.toWorld = { u.toWorld with tree := t }) ∨
      ((∃ cause, r = .error cause) ∧ u'.toWorld = u.toWorld) := by
  rcases call_cases h with hmade | ⟨trouble, hrefused⟩
  · rcases World.run_change_cases hmade with ⟨t, ht, hr, hafter⟩ | ⟨cause, -, hr, hsame⟩
    · exact Or.inl ⟨hr, t, ht, hafter⟩
    · exact Or.inr ⟨⟨cause, hr⟩, hsame⟩
  · obtain ⟨rfl, hsame⟩ := Prod.mk.inj hrefused
    exact Or.inr ⟨⟨_, rfl⟩, hsame.symm⟩

/-- A change that can be interrupted is made, or fails and is made in part at most. -/
theorem interruptible_cases {f : World → Except FileFault Tree}
    {part : Nat → World → Except FileFault Tree} {r : Except FileFault Unit}
    (h : (call (World.change f) (interrupt fun n => World.change (part n))).run u = (r, u')) :
    (r = .ok () ∧ ∃ t, f u.toWorld = .ok t ∧ u'.toWorld = { u.toWorld with tree := t }) ∨
      ((∃ cause, r = .error cause) ∧ ∃ t, u'.toWorld = { u.toWorld with tree := t } ∧
        (t = u.tree ∨ ∃ n, part n u.toWorld = .ok t)) := by
  rcases call_cases h with hmade | ⟨trouble, hspoilt⟩
  · rcases World.run_change_cases hmade with ⟨t, ht, hr, hafter⟩ | ⟨cause, -, hr, hsame⟩
    · exact Or.inl ⟨hr, t, ht, hafter⟩
    · exact Or.inr ⟨⟨cause, hr⟩, u.tree, hsame, Or.inl rfl⟩
  · right
    cases trouble with
    | refused cause =>
      obtain ⟨rfl, hsame⟩ := Prod.mk.inj hspoilt
      exact ⟨⟨cause, rfl⟩, u.tree, hsame.symm, Or.inl rfl⟩
    | stopped n cause =>
      rw [interrupt, StateT.run_bind] at hspoilt
      rcases hpart : (World.change (part n)).run u.toWorld with ⟨r', w⟩
      rw [hpart] at hspoilt
      rcases World.run_change_cases hpart with ⟨t, ht, rfl, rfl⟩ | ⟨own, -, rfl, rfl⟩
      · obtain ⟨rfl, hafter⟩ := Prod.mk.inj hspoilt
        exact ⟨⟨cause, rfl⟩, t, hafter.symm, Or.inr ⟨n, ht⟩⟩
      · obtain ⟨rfl, hsame⟩ := Prod.mk.inj hspoilt
        exact ⟨⟨own, rfl⟩, u.tree, hsame.symm, Or.inl rfl⟩

/-- A write that fails has written the first of its bytes at most. -/
theorem write_cases {action : StoreAction} {r : Except StoreError Unit}
    (h : u.exec (Filesystem.attempt action p (Filesystem.write p bytes)) = (r, u')) :
    (r = .ok () ∧ ∃ t, u.tree.write p bytes u.now = .ok t ∧
        u'.toWorld = { u.toWorld with tree := t }) ∨
      ((∃ cause, r = .error ⟨action, p, cause⟩) ∧
        ∃ t, u'.toWorld = { u.toWorld with tree := t } ∧ u.tree.PartWritten p bytes u.now t) := by
  obtain ⟨r₁, hrun, rfl⟩ := run_of_attempt h
  rcases interruptible_cases hrun with ⟨rfl, hdone⟩ | ⟨⟨cause, rfl⟩, hpart⟩
  · exact Or.inl ⟨rfl, hdone⟩
  · exact Or.inr ⟨⟨cause, rfl⟩, hpart⟩

/-- A copy that fails has written to its destination at most. -/
theorem copy_cases {action : StoreAction} {r : Except StoreError Unit}
    (h : u.exec (Filesystem.attempt action p (Filesystem.copy source dest)) = (r, u')) :
    (r = .ok () ∧ ∃ t, u.tree.copy source dest u.now = .ok t ∧
        u'.toWorld = { u.toWorld with tree := t }) ∨
      ((∃ cause, r = .error ⟨action, p, cause⟩) ∧ ∃ t bytes,
        u'.toWorld = { u.toWorld with tree := t } ∧ u.tree.PartWritten dest bytes u.now t) := by
  obtain ⟨r₁, hrun, rfl⟩ := run_of_attempt h
  rcases interruptible_cases hrun with ⟨rfl, hdone⟩ | ⟨⟨cause, rfl⟩, t, hafter, hpart⟩
  · exact Or.inl ⟨rfl, hdone⟩
  · refine Or.inr ⟨⟨cause, rfl⟩, t, ?_⟩
    rcases hpart with rfl | ⟨n, hpart⟩
    · exact ⟨[], hafter, Or.inl rfl⟩
    · obtain ⟨bytes, -, hwritten⟩ := Except.ok_of_bind hpart
      exact ⟨bytes, hafter, Or.inr ⟨n, hwritten⟩⟩

theorem remove_cases {action : StoreAction} {r : Except StoreError Unit}
    (h : u.exec (Filesystem.attempt action p (Filesystem.remove source)) = (r, u')) :
    (r = .ok () ∧ ∃ t, u.tree.remove source = .ok t ∧ u'.toWorld = { u.toWorld with tree := t }) ∨
      ((∃ cause, r = .error ⟨action, p, cause⟩) ∧ u'.toWorld = u.toWorld) := by
  obtain ⟨r₁, hrun, rfl⟩ := run_of_attempt h
  rcases refusable_cases hrun with ⟨rfl, hdone⟩ | ⟨⟨cause, rfl⟩, hsame⟩
  · exact Or.inl ⟨rfl, hdone⟩
  · exact Or.inr ⟨⟨cause, rfl⟩, hsame⟩

/-! ### Moving -/

/-- A file is copied and then removed; or one of these fails, and nothing was done but to write to the
destination. -/
theorem copy_remove_cases {r : Except StoreError Unit}
    (h : u.exec (do
      Filesystem.attempt .copying source (Filesystem.copy source dest)
      Filesystem.attempt .removing source (Filesystem.remove source)) = (r, u')) :
    (r = .ok () ∧ ∃ t t₁, u.tree.copy source dest u.now = .ok t ∧ t.remove source = .ok t₁ ∧
        u'.toWorld = { u.toWorld with tree := t₁ }) ∨
      ∃ action cause t bytes, (action = .copying ∨ action = .removing) ∧
        r = .error ⟨action, source, cause⟩ ∧ u'.toWorld = { u.toWorld with tree := t } ∧
        u.tree.PartWritten dest bytes u.now t := by
  rcases exec_bind_cases h with ⟨e, hcopy, rfl⟩ | ⟨_, u₁, hcopy, hremove⟩
  · rcases copy_cases hcopy with ⟨hok, -⟩ | ⟨⟨cause, herr⟩, t, bytes, hafter, hpart⟩
    · cases hok
    · cases herr
      exact Or.inr ⟨.copying, cause, t, bytes, Or.inl rfl, rfl, hafter, hpart⟩
  · rcases copy_cases hcopy with ⟨-, t, hcopied, hafter⟩ | ⟨⟨_, herr⟩, -⟩
    · rcases remove_cases hremove with ⟨rfl, t₁, hremoved, hafter₁⟩ | ⟨⟨cause, rfl⟩, hsame⟩
      · rw [hafter] at hremoved hafter₁
        exact Or.inl ⟨rfl, t, t₁, hcopied, hremoved, hafter₁⟩
      · obtain ⟨bytes, -, hwritten⟩ := Except.ok_of_bind hcopied
        exact Or.inr ⟨.removing, cause, t, bytes, Or.inr rfl, rfl, hsame.trans hafter,
          Tree.partWritten_of_write hwritten⟩
    · cases herr

/-- A file is taken to its destination; or it cannot be renamed, and nothing has changed; or it cannot be
copied or removed, and nothing was done but to write to the destination. -/
theorem moveFile_cases {r : Except StoreError Unit}
    (h : u.exec (Filesystem.moveFile source dest) = (r, u')) :
    (r = .ok () ∧ ∃ t, u.tree.Taken source dest u.now t ∧ u'.toWorld = { u.toWorld with tree := t }) ∨
      (∃ cause, r = .error ⟨.moving, source, cause⟩ ∧ u'.toWorld = u.toWorld) ∨
      ∃ action cause t bytes, (action = .copying ∨ action = .removing) ∧
        r = .error ⟨action, source, cause⟩ ∧ u'.toWorld = { u.toWorld with tree := t } ∧
        u.tree.PartWritten dest bytes u.now t := by
  rw [exec, Filesystem.moveFile, ExceptT.run_mk, StateT.run_bind] at h
  rcases hrename : (Filesystem.rename source dest : StateM UnreliableWorld _).run u with ⟨r₁, u₁⟩
  rw [hrename] at h
  rcases refusable_cases hrename with ⟨rfl, t, ht, hafter⟩ | ⟨⟨cause, rfl⟩, hsame⟩
  · obtain ⟨rfl, rfl⟩ := Prod.mk.inj h
    exact Or.inl ⟨rfl, t, Or.inl ht, hafter⟩
  by_cases hcross : cause = .crossesDevices
  · subst hcross
    have hway := copy_remove_cases h
    rw [hsame] at hway
    rcases hway with ⟨rfl, t, t₁, hcopied, hremoved, hafter⟩ | hfailed
    · exact Or.inl ⟨rfl, t₁, Or.inr ⟨t, hcopied, hremoved⟩, hafter⟩
    · exact Or.inr (Or.inr hfailed)
  · right
    left
    refine ⟨cause, ?_⟩
    cases cause with
    | crossesDevices => exact absurd rfl hcross
    | _ =>
      obtain ⟨rfl, rfl⟩ := Prod.mk.inj h
      exact ⟨rfl, hsame⟩

/-! ### Making directories -/

/-- Whether a program makes directories at most. -/
def MakesDirectories (x : StateM UnreliableWorld α) : Prop :=
  ∀ u, ∃ t, u.tree.Grows ∅ t ∧ (x.run u).2.toWorld = { u.toWorld with tree := t }

theorem makesDirectories_makeDirectory (p : Path) :
    MakesDirectories (Filesystem.makeDirectory p : StateM UnreliableWorld _) := by
  intro u
  rcases hrun : (Filesystem.makeDirectory p : StateM UnreliableWorld _).run u with ⟨r, u'⟩
  rcases refusable_cases hrun with ⟨-, t, ht, hafter⟩ | ⟨-, hsame⟩
  · exact ⟨t, Tree.makeDirectory_grows ht, hafter⟩
  · exact ⟨u.tree, Tree.Grows.refl _ _, hsame⟩

theorem makesDirectories_isDirectory (p : Path) :
    MakesDirectories (Filesystem.isDirectory p : StateM UnreliableWorld _) := by
  intro u
  rcases hrun : (Filesystem.isDirectory p : StateM UnreliableWorld _).run u with ⟨b, u'⟩
  refine ⟨u.tree, Tree.Grows.refl _ _, ?_⟩
  rcases call_cases hrun with hlooked | ⟨_, hmissed⟩
  · exact (congrArg Prod.snd hlooked).symm
  · exact (congrArg Prod.snd hmissed).symm

theorem makesDirectories_composable :
    Composable (StateM UnreliableWorld) fun _ x => MakesDirectories x where
  pure _ u := ⟨u.tree, Tree.Grows.refl _ _, rfl⟩
  isDirectory := makesDirectories_isDirectory
  bind {α β x f} hx hf := by
    intro u
    obtain ⟨t, ht, hu⟩ := hx u
    obtain ⟨t', ht', hu'⟩ := hf (x.run u).1 (x.run u).2
    rw [hu] at ht' hu'
    exact ⟨t', ht.trans ht', hu'⟩

/-- However it ends, creating a directory makes directories at most. -/
theorem create_cases {r : Except StoreError Unit} (h : u.exec (Filing.create p) = (r, u')) :
    (∃ t, u.tree.Grows ∅ t ∧ u'.toWorld = { u.toWorld with tree := t }) ∧
      (r = .ok () ∨ ∃ cause, r = .error ⟨.creating, p, cause⟩) := by
  obtain ⟨r₁, hrun, rfl⟩ := run_of_attempt h
  obtain ⟨t, hgrows, hafter⟩ := makesDirectories_composable.makeDirectories (p := p)
    (fun q _ => makesDirectories_makeDirectory q) u
  rw [hrun] at hafter
  refine ⟨⟨t, hgrows, hafter⟩, ?_⟩
  cases r₁ with
  | ok _ => exact Or.inl rfl
  | error cause => exact Or.inr ⟨cause, rfl⟩

end UnreliableWorld

end ProposalReview
