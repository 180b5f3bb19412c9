import Mathlib
import ProposalReview.Filing.World
import ProposalReview.Proofs.Filing.Change
/-!
Programs in a world.

`exec` gives the result of a program together with the world that it leaves, also when the program
fails. A relation between worlds that every step of a program keeps is kept by the whole program,
however it ends; that is how what a run cannot do is proved.
-/

namespace ProposalReview

/-- A program that goes on after another one ends with the first one's fault, or goes on. -/
theorem ExceptT.run_bind_cases {σ ε α β : Type} {x : ExceptT ε (StateM σ) α}
    {f : α → ExceptT ε (StateM σ) β} {s s' : σ} {r : Except ε β}
    (h : (x >>= f).run.run s = (r, s')) :
    (∃ e, x.run.run s = (.error e, s') ∧ r = .error e) ∨
      ∃ a s₁, x.run.run s = (.ok a, s₁) ∧ (f a).run.run s₁ = (r, s') := by
  rw [ExceptT.run_bind, StateT.run_bind] at h
  rcases hx : x.run.run s with ⟨e | a, s₁⟩
  · rw [hx] at h
    cases h
    exact Or.inl ⟨e, rfl, rfl⟩
  · rw [hx] at h
    exact Or.inr ⟨a, s₁, rfl, h⟩

namespace World

variable {ε α β : Type} {w w' : World} {r : Except ε β}

/-- What a program gives in a world, and the world that it leaves. -/
def exec (w : World) (x : ExceptT ε (StateM World) α) : Except ε α × World := x.run.run w

@[simp] theorem exec_pure (w : World) (a : α) :
    w.exec (pure a : ExceptT ε (StateM World) α) = (.ok a, w) := rfl

theorem exec_bind (w : World) (x : ExceptT ε (StateM World) α) (f : α → ExceptT ε (StateM World) β) :
    w.exec (x >>= f) = match w.exec x with
      | (.ok a, w') => w'.exec (f a)
      | (.error e, w') => (.error e, w') := by
  rw [exec, ExceptT.run_bind, StateT.run_bind]
  change (match (w.exec x).1 with
    | .ok a => (f a).run
    | .error e => pure (.error e)).run (w.exec x).2 = _
  rcases w.exec x with ⟨e | a, w'⟩ <;> rfl

theorem exec_bind_cases {x : ExceptT ε (StateM World) α} {f : α → ExceptT ε (StateM World) β}
    (h : w.exec (x >>= f) = (r, w')) : (∃ e, w.exec x = (.error e, w') ∧ r = .error e) ∨
      ∃ a w₁, w.exec x = (.ok a, w₁) ∧ w₁.exec (f a) = (r, w') :=
  ExceptT.run_bind_cases h

theorem exec_ok_of_bind {x : ExceptT ε (StateM World) α} {f : α → ExceptT ε (StateM World) β} {b : β}
    (h : w.exec (x >>= f) = (.ok b, w')) :
    ∃ a w₁, w.exec x = (.ok a, w₁) ∧ w₁.exec (f a) = (.ok b, w') := by
  rcases exec_bind_cases h with ⟨e, -, he⟩ | hok
  · cases he
  · exact hok

/-- A program that shows something when it has ended has succeeded. -/
theorem exists_of_seen {γ : Type} {x : ExceptT ε (StateM World) α} {g : α → γ} {b : γ}
    (h : (w.exec x).1.toOption.map g = some b) : ∃ a w', w.exec x = (.ok a, w') ∧ g a = b := by
  rcases hx : w.exec x with ⟨e | a, w'⟩
  · rw [hx] at h
    cases h
  · rw [hx] at h
    exact ⟨a, w', rfl, Option.some_inj.mp h⟩

theorem exec_lift (w : World) (x : StateM World α) :
    w.exec (liftM x : ExceptT ε (StateM World) α) = (.ok (x.run w).1, (x.run w).2) := rfl

theorem exec_attempt (w : World) (action : StoreAction) (p : Path)
    (x : StateM World (Except FileFault α)) :
    w.exec (Filesystem.attempt action p x)
      = ((x.run w).1.mapError fun cause => ⟨action, p, cause⟩, (x.run w).2) := by
  rw [exec, Filesystem.attempt, ExceptT.run_mk, StateT.run_bind]
  rcases x.run w with ⟨e | a, w'⟩
  · rfl
  · rfl

theorem exec_attempt_look (w : World) (action : StoreAction) (p : Path)
    (f : Tree → Except FileFault α) : w.exec (Filesystem.attempt action p (look f))
      = ((f w.tree).mapError fun cause => ⟨action, p, cause⟩, w) :=
  exec_attempt w action p (look f)

/-- A change of the tree is made, or fails and leaves the world as it was. -/
theorem run_change_cases {f : World → Except FileFault Tree} {r : Except FileFault Unit}
    (h : (change f).run w = (r, w')) : (∃ t, f w = .ok t ∧ r = .ok () ∧ w' = { w with tree := t }) ∨
      ∃ cause, f w = .error cause ∧ r = .error cause ∧ w' = w := by
  change change f w = _ at h
  rw [change] at h
  split at h
  · next t ht =>
    obtain ⟨rfl, rfl⟩ := Prod.mk.inj h
    exact Or.inl ⟨t, ht, rfl, rfl⟩
  · next cause hcause =>
    obtain ⟨rfl, rfl⟩ := Prod.mk.inj h
    exact Or.inr ⟨cause, hcause, rfl, rfl⟩

theorem exec_attempt_change (w : World) (action : StoreAction) (p : Path)
    (f : World → Except FileFault Tree) : w.exec (Filesystem.attempt action p (change f))
      = match f w with
        | .ok t => (.ok (), { w with tree := t })
        | .error cause => (.error ⟨action, p, cause⟩, w) := by
  rw [exec_attempt]
  change (Except.mapError _ (change f w).1, (change f w).2) = _
  rw [change]
  cases f w with
  | ok t => rfl
  | error cause => rfl

theorem exec_write (w : World) (action : StoreAction) (p : Path) (bytes : Bytes) :
    w.exec (Filesystem.attempt action p (Filesystem.write p bytes))
      = match w.tree.write p bytes w.now with
        | .ok t => (.ok (), { w with tree := t })
        | .error cause => (.error ⟨action, p, cause⟩, w) :=
  exec_attempt_change w action p fun w => w.tree.write p bytes w.now

theorem change_cases {action : StoreAction} {p : Path} {f : World → Except FileFault Tree}
    {r : Except StoreError Unit} (h : w.exec (Filesystem.attempt action p (change f)) = (r, w')) :
    (∃ t, f w = .ok t ∧ r = .ok () ∧ w' = { w with tree := t }) ∨
      ∃ cause, f w = .error cause ∧ r = .error ⟨action, p, cause⟩ ∧ w' = w := by
  rw [exec_attempt_change] at h
  cases hf : f w with
  | ok t =>
    rw [hf] at h
    obtain ⟨rfl, rfl⟩ := Prod.mk.inj h
    exact Or.inl ⟨t, rfl, rfl, rfl⟩
  | error cause =>
    rw [hf] at h
    obtain ⟨rfl, rfl⟩ := Prod.mk.inj h
    exact Or.inr ⟨cause, rfl, rfl, rfl⟩

/-- In a world a file is moved without being copied. -/
theorem moveFile_eq (source dest : Path) :
    (Filesystem.moveFile source dest : ExceptT StoreError (StateM World) Unit) =
      Filesystem.attempt .moving source (Filesystem.rename source dest) := by
  refine congrArg ExceptT.mk (funext fun w => ?_)
  have hne : ((Filesystem.rename source dest : StateM World _) w).1 ≠ .error .crossesDevices := by
    change (change (fun w => w.tree.rename source dest) w).1 ≠ _
    rw [change]
    split
    · rintro ⟨⟩
    · next cause h =>
      rintro ⟨⟩
      exact Tree.rename_ne_crossesDevices h
  rcases hr : (Filesystem.rename source dest : StateM World _) w with ⟨r, w'⟩
  rw [hr] at hne
  simp only [bind, StateT.bind, hr]
  split
  · rfl
  · exact absurd rfl hne
  · rfl

theorem moveFile_cases {source dest : Path} {r : Except StoreError Unit}
    (h : w.exec (Filesystem.moveFile source dest) = (r, w')) :
    (∃ t, w.tree.rename source dest = .ok t ∧ r = .ok () ∧ w' = { w with tree := t }) ∨
      ∃ cause, w.tree.rename source dest = .error cause ∧ r = .error ⟨.moving, source, cause⟩ ∧
        w' = w := by
  rw [moveFile_eq] at h
  exact change_cases h

end World

/-! ### Programs that are put together -/

/-- Whether programs have a property if their parts have it: those that do nothing or look for a directory
have it, and so has one after another. -/
structure Composable (m : Type → Type) [Monad m] [Filesystem m] (P : (α : Type) → m α → Prop) :
    Prop where
  pure : ∀ {α : Type} (a : α), P α (Pure.pure a)
  isDirectory : ∀ p : Path, P Bool (Filesystem.isDirectory p)
  bind : ∀ {α β : Type} {x : m α} {f : α → m β}, P α x → (∀ a, P β (f a)) → P β (x >>= f)

namespace Composable

variable {m : Type → Type} [Monad m] [Filesystem m] {P : (α : Type) → m α → Prop} {ε α β : Type}
  {p : Path}

theorem exceptBind (h : Composable m P) {x : ExceptT ε m α}
    {f : α → ExceptT ε m β} (hx : P _ x.run) (hf : ∀ a, P _ (f a).run) :
    P _ (x >>= f).run := by
  rw [ExceptT.run_bind]
  refine h.bind hx fun r => ?_
  cases r with
  | ok a => exact hf a
  | error e => exact h.pure _

theorem attempt (h : Composable m P) {action : StoreAction} {x : m (Except FileFault α)}
    (hx : P _ x) : P _ (Filesystem.attempt action p x).run := by
  refine h.bind hx fun r => ?_
  cases r with
  | ok a => exact h.pure _
  | error e => exact h.pure _

theorem unlessDirectory (h : Composable m P) (p : Path) (cause : FileFault) :
    P _ (Filesystem.unlessDirectory p cause) := by
  refine h.bind (h.isDirectory p) fun b => ?_
  cases b
  · exact h.pure _
  · exact h.pure _

theorem makeOne (h : Composable m P) (hp : P _ (Filesystem.makeDirectory p)) :
    P _ (Filesystem.makeOne p) := by
  refine h.bind hp fun r => ?_
  cases r with
  | ok _ => exact h.pure _
  | error cause => exact h.unlessDirectory p cause

theorem makeChain (h : Composable m P) {ps : List Path}
    (hps : ∀ p ∈ ps, P _ (Filesystem.makeDirectory p)) : P _ (Filesystem.makeChain ps) := by
  induction ps with
  | nil => exact h.pure _
  | cons p above ih =>
    obtain ⟨hp, habove⟩ := List.forall_mem_cons.mp hps
    rw [Filesystem.makeChain]
    refine h.bind hp fun r => ?_
    split
    · exact h.pure _
    · refine h.bind (ih habove) fun r => ?_
      split
      · exact h.pure _
      · exact h.makeOne hp
    · exact h.unlessDirectory p _

/-- A directory and those above it can be made with a property if each of them can. -/
theorem makeDirectories (h : Composable m P)
    (hp : ∀ q ∈ p :: p.above, P _ (Filesystem.makeDirectory q)) :
    P _ (Filesystem.makeDirectories p) := by
  rw [Filesystem.makeDirectories]
  split
  · exact h.pure _
  · exact h.makeChain hp

end Composable

/-! ### Relations that programs keep -/

/-- Whether a program only changes the tree of a world, and a relation holds between the tree before
and the tree after. -/
def Keeps {α : Type} (T : Tree → Tree → Prop) (x : StateM World α) : Prop :=
  ∀ w, ∃ t, T w.tree t ∧ (x.run w).2 = { w with tree := t }

namespace Keeps

variable {ε ε' α β : Type} {T U : Tree → Tree → Prop}

theorem mono {x : StateM World α} (hx : Keeps T x) (hTU : ∀ {t t'}, T t t' → U t t') : Keeps U x := by
  intro w
  obtain ⟨t, ht, hw⟩ := hx w
  exact ⟨t, hTU ht, hw⟩

theorem exec {x : ExceptT ε (StateM World) α} (hx : Keeps T x.run) {w w' : World} {r : Except ε α}
    (h : w.exec x = (r, w')) : ∃ t, T w.tree t ∧ w' = { w with tree := t } := by
  obtain ⟨t, ht, hw⟩ := hx w
  rw [show x.run.run w = (r, w') from h] at hw
  exact ⟨t, ht, hw⟩

variable [IsPreorder Tree T]

/-- A program that leaves the tree alone keeps every preorder. -/
theorem of_eq {x : StateM World α} (hx : Keeps Eq x) : Keeps T x :=
  hx.mono fun h => by
    rw [h]
    exact refl_of T _

theorem pure (a : α) : Keeps T (Pure.pure a : StateM World α) := fun w => ⟨w.tree, refl_of T _, rfl⟩

theorem look (f : Tree → α) : Keeps T (World.look f) := fun w => ⟨w.tree, refl_of T _, rfl⟩

theorem bind {x : StateM World α} {f : α → StateM World β} (hx : Keeps T x) (hf : ∀ a, Keeps T (f a)) :
    Keeps T (x >>= f) := by
  intro w
  obtain ⟨t, ht, hw⟩ := hx w
  obtain ⟨t', ht', hw'⟩ := hf (x.run w).1 (x.run w).2
  rw [hw] at ht' hw'
  refine ⟨t', trans_of T ht ht', ?_⟩
  rw [StateT.run_bind]
  change ((f (x.run w).1).run (x.run w).2).2 = _
  rw [hw, hw']

theorem change {f : World → Except FileFault Tree} (hf : ∀ w t, f w = .ok t → T w.tree t) :
    Keeps T (World.change f) := by
  intro w
  change ∃ t, T w.tree t ∧ (World.change f w).2 = _
  rw [World.change]
  split
  · next t ht => exact ⟨t, hf w t ht, rfl⟩
  · exact ⟨w.tree, refl_of T _, rfl⟩

theorem composable : Composable (StateM World) fun _ x => Keeps T x :=
  ⟨Keeps.pure, fun _ => Keeps.look _, Keeps.bind⟩

theorem exceptBind {x : ExceptT ε (StateM World) α} {f : α → ExceptT ε (StateM World) β}
    (hx : Keeps T x.run) (hf : ∀ a, Keeps T (f a).run) : Keeps T (x >>= f).run :=
  Keeps.composable.exceptBind hx hf

theorem attempt {action : StoreAction} {p : Path} {x : StateM World (Except FileFault α)}
    (hx : Keeps T x) : Keeps T (Filesystem.attempt action p x).run :=
  Keeps.composable.attempt hx

end Keeps

end ProposalReview
