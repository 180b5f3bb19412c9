import Mathlib
import ProposalReview.Proofs.Filing.Effect
import ProposalReview.Proofs.Filing.Readback
/-!
Two programs in step.

What the gate was asked in a world does not show in its files, so a program on files does the same in two
worlds that differ in that alone. Two programs that are not quite the same go in step if they end with the
same error, or with values that are related in some way; this is put together from their parts.
-/

namespace ProposalReview

/-- Two worlds that differ in the requests received only, and these as a relation allows. -/
structure World.Alike (Q : List GateRequest → List GateRequest → Prop) (w v : World) : Prop where
  tree : v.tree = w.tree
  now : v.now = w.now
  requests : Q w.requests v.requests

/-- Whether a program neither sees nor makes requests: in two worlds that differ in the requests received it
gives the same, and they still differ in nothing else. -/
def Oblivious {α : Type} (x : StateM World α) : Prop :=
  ∀ Q w v, World.Alike Q w v → (x.run v).1 = (x.run w).1 ∧ World.Alike Q (x.run w).2 (x.run v).2

namespace Oblivious

variable {α β : Type}

theorem pure (a : α) : Oblivious (Pure.pure a : StateM World α) := fun _ _ _ h => ⟨rfl, h⟩

theorem look (f : Tree → α) : Oblivious (World.look f) :=
  fun _ _ _ h => ⟨congrArg f h.tree, h⟩

theorem change {f : World → Except FileFault Tree}
    (hf : ∀ w v : World, v.tree = w.tree → v.now = w.now → f v = f w) : Oblivious (World.change f) := by
  intro Q w v h
  change (World.change f v).1 = (World.change f w).1 ∧
    World.Alike Q (World.change f w).2 (World.change f v).2
  rw [World.change, World.change, hf w v h.tree h.now]
  cases f w with
  | ok t => exact ⟨rfl, rfl, h.now, h.requests⟩
  | error cause => exact ⟨rfl, h⟩

theorem bind {x : StateM World α} {f : α → StateM World β} (hx : Oblivious x)
    (hf : ∀ a, Oblivious (f a)) : Oblivious (x >>= f) := by
  intro Q w v h
  obtain ⟨hvalue, hworlds⟩ := hx Q w v h
  rw [StateT.run_bind, StateT.run_bind]
  change ((f (x.run v).1).run (x.run v).2).1 = ((f (x.run w).1).run (x.run w).2).1 ∧
    World.Alike Q ((f (x.run w).1).run (x.run w).2).2 ((f (x.run v).1).run (x.run v).2).2
  rw [hvalue]
  exact hf _ Q _ _ hworlds

theorem composable : Composable (StateM World) fun _ x => Oblivious x :=
  ⟨Oblivious.pure, fun _ => Oblivious.look _, Oblivious.bind⟩

end Oblivious

/-! ### Programs on files -/

namespace Filesystem

theorem makeDirectory_oblivious (p : Path) : Oblivious (makeDirectory p : StateM World _) :=
  Oblivious.change fun w v htree _ => by rw [htree]

theorem write_oblivious (p : Path) (bytes : Bytes) : Oblivious (write p bytes : StateM World _) :=
  Oblivious.change fun w v htree hnow => by rw [htree, hnow]

theorem rename_oblivious (p q : Path) : Oblivious (rename p q : StateM World _) :=
  Oblivious.change fun w v htree _ => by rw [htree]

end Filesystem

namespace Filing

theorem create_oblivious (p : Path) :
    Oblivious (create p : ExceptT StoreError (StateM World) Unit).run :=
  Oblivious.composable.attempt <|
    Oblivious.composable.makeDirectories fun q _ => Filesystem.makeDirectory_oblivious q

theorem move_oblivious (f : Filing) (d : Decision) :
    Oblivious (f.move d : ExceptT StoreError (StateM World) Unit).run := by
  rw [move_eq]
  split
  · exact Oblivious.pure _
  · exact Oblivious.composable.attempt (Filesystem.rename_oblivious _ _)

theorem fileIncident_oblivious (f : Filing) (d : Decision) :
    Oblivious (f.fileIncident d : ExceptT StoreError (StateM World) Unit).run := by
  rw [fileIncident]
  split
  · exact Oblivious.pure _
  · exact Oblivious.composable.exceptBind (create_oblivious _) fun _ =>
      Oblivious.composable.attempt (Filesystem.write_oblivious _ _)

end Filing

/-! ### Two programs -/

/-- How two programs end that go in step: with the same error, in worlds that are related, or with values,
and these and the worlds are related. -/
inductive InStep {ε α β : Type} (E : World → World → Prop) (V : α → β → World → World → Prop) :
    Except ε α × World → Except ε β × World → Prop
  | error {e w v} (ended : E w v) : InStep E V (.error e, w) (.error e, v)
  | ok {a b w v} (ended : V a b w v) : InStep E V (.ok a, w) (.ok b, v)

namespace InStep

variable {ε α β γ δ : Type} {E : World → World → Prop} {V : α → β → World → World → Prop}
  {U : γ → δ → World → World → Prop} {w v : World}

theorem bind {x : ExceptT ε (StateM World) α} {y : ExceptT ε (StateM World) β}
    {f : α → ExceptT ε (StateM World) γ} {g : β → ExceptT ε (StateM World) δ}
    (h : InStep E V (w.exec x) (v.exec y))
    (hrest : ∀ a b w' v', V a b w' v' → InStep E U (w'.exec (f a)) (v'.exec (g b))) :
    InStep E U (w.exec (x >>= f)) (v.exec (y >>= g)) := by
  rw [World.exec_bind, World.exec_bind]
  rcases hx : w.exec x with ⟨r, w'⟩
  rcases hy : v.exec y with ⟨r', v'⟩
  rw [hx, hy] at h
  cases h with
  | error ended => exact .error ended
  | ok ended => exact hrest _ _ _ _ ended

/-- Two programs that yield lists go in step if their first elements and the rest do. -/
theorem cons {R : α → β → Prop} {W : World → World → Prop} {x : ExceptT ε (StateM World) α}
    {y : ExceptT ε (StateM World) β} {xs : ExceptT ε (StateM World) (List α)}
    {ys : ExceptT ε (StateM World) (List β)}
    (h : InStep E (fun a b w v => R a b ∧ W w v) (w.exec x) (v.exec y))
    (hrest : ∀ w v, W w v →
      InStep E (fun as bs w v => List.Forall₂ R as bs ∧ W w v) (w.exec xs) (v.exec ys)) :
    InStep E (fun as bs w v => List.Forall₂ R as bs ∧ W w v)
      (w.exec do return (← x) :: (← xs)) (v.exec do return (← y) :: (← ys)) := by
  refine h.bind ?_
  rintro a b w₁ v₁ ⟨hab, h₁⟩
  refine (hrest w₁ v₁ h₁).bind ?_
  rintro as bs w₂ v₂ ⟨habs, h₂⟩
  exact .ok ⟨.cons hab habs, h₂⟩

theorem storing {x : ExceptT StoreError (StateM World) α} {y : ExceptT StoreError (StateM World) β}
    (h : InStep E V (w.exec x) (v.exec y)) :
    InStep E V (w.exec (Run.storing x)) (v.exec (Run.storing y)) := by
  change InStep E V ((w.exec x).1.mapError RunError.store, (w.exec x).2)
    ((v.exec y).1.mapError RunError.store, (v.exec y).2)
  rcases hx : w.exec x with ⟨r, w'⟩
  rcases hy : v.exec y with ⟨r', v'⟩
  rw [hx, hy] at h
  cases h with
  | error ended => exact .error ended
  | ok ended => exact .ok ended

end InStep

/-- A program that is oblivious goes in step with itself. -/
theorem Oblivious.inStep {ε α : Type} {x : ExceptT ε (StateM World) α} (hx : Oblivious x.run)
    {Q : List GateRequest → List GateRequest → Prop} {w v : World} (h : World.Alike Q w v) :
    InStep (World.Alike Q) (fun a b w v => b = a ∧ World.Alike Q w v) (w.exec x) (v.exec x) := by
  obtain ⟨hvalue, hworlds⟩ := hx Q w v h
  change InStep _ _ ((x.run.run w).1, (x.run.run w).2) ((x.run.run v).1, (x.run.run v).2)
  rw [hvalue]
  cases (x.run.run w).1 with
  | error e => exact .error hworlds
  | ok a => exact .ok ⟨rfl, hworlds⟩

end ProposalReview
