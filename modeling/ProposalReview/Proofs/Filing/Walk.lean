import Mathlib
import ProposalReview.Proofs.Filing.Tree
/-!
Where walks come to, and what the operations on files do to a tree.

A walk that succeeds ends at a directory or in one; without links it ends at the place that the path
names. So every operation that succeeds is one of the changes `put` and `relocate`, in a directory and
under a valid name, and at the path's place if there are no links.
-/

namespace ProposalReview

theorem Except.ok_of_bind {ε α β : Type} {x : Except ε α} {f : α → Except ε β} {b : β}
    (h : x >>= f = .ok b) : ∃ a, x = .ok a ∧ f a = .ok b := by
  cases x with
  | error e => cases h
  | ok a => exact ⟨a, rfl, h⟩

theorem Except.ok_of_map {ε α β : Type} {x : Except ε α} {f : α → β} {b : β}
    (h : x.map f = .ok b) : ∃ a, x = .ok a ∧ f a = b := by
  cases x with
  | error e => cases h
  | ok a => exact ⟨a, rfl, Except.ok.inj h⟩

theorem Except.bind_ne_error {ε α β : Type} {x : Except ε α} {f : α → Except ε β} {e : ε}
    (hx : x ≠ .error e) (hf : ∀ a, f a ≠ .error e) : x >>= f ≠ .error e := by
  cases x with
  | error e' => exact fun h => hx (congrArg _ (Except.error.inj h))
  | ok a => exact hf a

namespace Tree

variable {t t' : Tree} {l : Location} {p : Path}

/-- Names that a walk can be made of. -/
def Walkable (ns : List Name) : Prop := ∀ n ∈ ns, n ≠ [] ∧ slash ∉ n

/-- Whether a location is one in a directory, under a valid name. -/
def InDirectory (t : Tree) (l : Location) : Prop :=
  ∃ d n, l = d ++ [n] ∧ t.entry? d = some .directory ∧ Name.Valid n

theorem walkable_split (bs : Bytes) : Walkable ((Path.splitSlash bs).filter (· ≠ [])) := by
  intro n hn
  rw [List.mem_filter, decide_eq_true_eq] at hn
  exact ⟨hn.2, Path.slash_not_mem_of_mem_splitSlash hn.1⟩

theorem walkable_here : Walkable [Path.hereName] := by
  intro n hn
  rw [List.mem_singleton] at hn
  subst hn
  exact ⟨by decide, by decide⟩

theorem Walkable.append {ms ns : List Name} (hm : Walkable ms) (hn : Walkable ns) :
    Walkable (ms ++ ns) :=
  fun n h => (List.mem_append.mp h).elim (hm n) (hn n)

theorem walkable_steps (p : Path) : Walkable p.steps := by
  rw [Path.steps]
  refine (walkable_split p.bytes).append ?_
  split
  · exact walkable_here
  · exact fun n hn => absurd hn List.not_mem_nil

/-! ### One step of a walk -/

/-- What the first step of a walk that succeeds can be. -/
theorem walk_cons {follow : Bool} {n : Name} {ns : List Name} {s : Stop}
    (hs : t.walk follow l (n :: ns) = .ok s) :
    (n = Path.hereName ∧ t.walk follow l ns = .ok s) ∨
    (n = Path.parentName ∧ t.walk follow l.dropLast ns = .ok s) ∨
    (n ≠ Path.hereName ∧ n ≠ Path.parentName ∧
      ((t.entry? (l ++ [n]) = some .directory ∧ t.walk follow (l ++ [n]) ns = .ok s) ∨
       (t.entry? (l ++ [n]) ≠ some .directory ∧ ns = [] ∧ s = .atEnd (l ++ [n]) ∧
         ∀ target, t.entry? (l ++ [n]) = some (.link target) → follow = false) ∨
       ∃ target, t.entry? (l ++ [n]) = some (.link target) ∧
         s = .leap (if target.isAbsolute then [] else l) (target.steps ++ ns))) := by
  rw [walk] at hs
  by_cases h1 : n = Path.hereName
  · exact Or.inl ⟨h1, by rwa [if_pos h1] at hs⟩
  rw [if_neg h1] at hs
  by_cases h2 : n = Path.parentName
  · exact Or.inr (Or.inl ⟨h2, by rwa [if_pos h2] at hs⟩)
  rw [if_neg h2] at hs
  refine Or.inr (Or.inr ⟨h1, h2, ?_⟩)
  by_cases h3 : nameLimit < n.length
  · rw [if_pos h3] at hs
    cases hs
  rw [if_neg h3] at hs
  -- a file and a free place end a walk alike: only as its last name
  cases he : t.entry? (l ++ [n]) with
  | none =>
    simp only [he] at hs
    split_ifs at hs with hns
    cases hs
    exact Or.inr (Or.inl ⟨by simp, hns, rfl, by simp⟩)
  | some e =>
    cases e with
    | directory => exact Or.inl ⟨rfl, by simpa only [he] using hs⟩
    | file bytes time =>
      simp only [he] at hs
      split_ifs at hs with hns
      cases hs
      exact Or.inr (Or.inl ⟨by simp, hns, rfl, by simp⟩)
    | link target =>
      simp only [he] at hs
      by_cases hns : ns = [] ∧ ¬ follow = true
      · rw [if_pos hns] at hs
        cases hs
        exact Or.inr (Or.inl ⟨by simp, hns.1, rfl, fun _ _ => by simpa using hns.2⟩)
      · rw [if_neg hns] at hs
        exact Or.inr (Or.inr ⟨target, rfl, (Except.ok.inj hs).symm⟩)

/-- A walk through links is one without, or leaps once and goes on. -/
theorem walkLinks_ok {follow : Bool} {links : Nat} {ns : List Name} {l' : Location}
    (hs : t.walkLinks follow links l ns = .ok l') :
    t.walk follow l ns = .ok (.atEnd l') ∨ ∃ base ms k, links = k + 1 ∧
      t.walk follow l ns = .ok (.leap base ms) ∧ t.walkLinks follow k base ms = .ok l' := by
  rw [walkLinks.eq_def] at hs
  simp only at hs
  cases hw : t.walk follow l ns with
  | error e =>
    rw [hw] at hs
    cases hs
  | ok s =>
    rw [hw] at hs
    cases s with
    | atEnd l =>
      cases hs
      exact Or.inl rfl
    | leap base ms =>
      cases links with
      | zero => cases hs
      | succ k => exact Or.inr ⟨base, ms, k, rfl, rfl, hs⟩

/-- What holds at the start of a walk through links and at every leap leads to what holds at its
end. -/
theorem walkLinks_invariant {P : Location → List Name → Prop} {Q : Location → Prop} {follow : Bool}
    (hend : ∀ {m ns l'}, P m ns → t.walk follow m ns = .ok (.atEnd l') → Q l')
    (hleap : ∀ {m ns base ms}, P m ns → t.walk follow m ns = .ok (.leap base ms) → P base ms)
    {links : Nat} {ns : List Name} {l' : Location} (hstart : P l ns)
    (hs : t.walkLinks follow links l ns = .ok l') : Q l' := by
  induction links generalizing l ns with
  | zero =>
    rcases walkLinks_ok hs with hs | ⟨_, _, k, hk, -, -⟩
    · exact hend hstart hs
    · exact absurd hk.symm k.succ_ne_zero
  | succ links ih =>
    rcases walkLinks_ok hs with hs | ⟨base, ms, k, hk, hwalk, hs⟩
    · exact hend hstart hs
    · rw [← Nat.succ_inj.mp hk] at hs
      exact ih (hleap hstart hwalk) hs

theorem locateName_some (hl : t.locateName p = .ok (some l)) : ∃ d ns n,
    (Path.splitSlash p.bytes).filter (· ≠ []) = ns ++ [n] ∧
    n ≠ Path.hereName ∧ n ≠ Path.parentName ∧ n.length ≤ nameLimit ∧ l = d ++ [n] ∧
    t.walkLinks true linkLimit [] (ns ++ [Path.hereName]) = .ok d := by
  obtain ⟨-, -, hl⟩ := Except.ok_of_bind hl
  obtain ⟨d, hd, hl⟩ := Except.ok_of_bind hl
  rcases List.eq_nil_or_concat ((Path.splitSlash p.bytes).filter (· ≠ [])) with hnil | ⟨ns, n, hns⟩
  · rw [hnil] at hl
    cases hl
  · rw [List.concat_eq_append] at hns
    rw [hns, List.dropLast_concat] at hd
    simp only [hns, List.getLast?_concat] at hl
    by_cases h1 : n = Path.hereName ∨ n = Path.parentName
    · rw [if_pos h1] at hl
      cases hl
    rw [if_neg h1] at hl
    by_cases h2 : nameLimit < n.length
    · rw [if_pos h2] at hl
      cases hl
    rw [if_neg h2] at hl
    cases hl
    rw [not_or] at h1
    exact ⟨d, ns, n, hns, h1.1, h1.2, Nat.le_of_not_lt h2, rfl, hd⟩

/-! ### Walks in well-formed trees -/

/-- What is known of where a walk came to. If its last name is a single dot, it is a directory. -/
def Stop.Sound (t : Tree) (dotted : Prop) : Stop → Prop
  | .atEnd l => t.entry? l = some .directory ∨ ¬ dotted ∧ t.InDirectory l
  | .leap base ns => t.entry? base = some .directory ∧ Walkable ns ∧
      (dotted → ns.getLast? = some Path.hereName)

theorem WellFormed.dropLast (h : t.WellFormed) (hl : t.entry? l = some .directory) :
    t.entry? l.dropLast = some .directory := by
  rcases List.eq_nil_or_concat l with rfl | ⟨d, n, rfl⟩
  · exact hl
  · rw [List.concat_eq_append] at hl ⊢
    rw [List.dropLast_concat]
    exact h.parent hl

/-- A walk that starts at a directory comes to a directory or to a place in one. -/
theorem walk_sound (dotted : Prop) (h : t.WellFormed) {follow : Bool} {ns : List Name} {s : Stop}
    (hl : t.entry? l = some .directory) (hw : Walkable ns)
    (hd : dotted → ns = [] ∨ ns.getLast? = some Path.hereName)
    (hs : t.walk follow l ns = .ok s) : s.Sound t dotted := by
  induction ns generalizing l with
  | nil =>
    cases hs
    exact Or.inl hl
  | cons n ns ih =>
    have hns : Walkable ns := fun m hm => hw m (List.mem_cons_of_mem _ hm)
    have hrest : dotted → ns = [] ∨ ns.getLast? = some Path.hereName := by
      intro hdot
      cases ns with
      | nil => exact Or.inl rfl
      | cons m ms => simpa using hd hdot
    rcases walk_cons hs with ⟨-, hs⟩ | ⟨-, hs⟩ | ⟨h1, h2, hs⟩
    · exact ih hl hns hrest hs
    · exact ih (h.dropLast hl) hns hrest hs
    · have hlast : dotted → ns ≠ [] := by
        rintro hdot rfl
        exact h1 (by simpa using hd hdot)
      rcases hs with ⟨hdir, hs⟩ | ⟨-, hnil, rfl, -⟩ | ⟨target, -, rfl⟩
      · exact ih hdir hns hrest hs
      · have hn := hw n List.mem_cons_self
        exact Or.inr ⟨fun hdot => hlast hdot hnil, l, n, rfl, hl, hn.1, hn.2, h1, h2⟩
      · refine ⟨?_, (walkable_steps target).append hns, fun hdot => ?_⟩
        · split_ifs
          · rfl
          · exact hl
        · rw [List.getLast?_append_of_ne_nil _ (hlast hdot)]
          exact (hrest hdot).resolve_left (hlast hdot)

theorem walkLinks_sound (dotted : Prop) (h : t.WellFormed) {follow : Bool} {links : Nat}
    {ns : List Name} {l' : Location} (hl : t.entry? l = some .directory) (hw : Walkable ns)
    (hd : dotted → ns = [] ∨ ns.getLast? = some Path.hereName)
    (hs : t.walkLinks follow links l ns = .ok l') : Stop.Sound t dotted (.atEnd l') := by
  refine walkLinks_invariant (P := fun m ns => t.entry? m = some .directory ∧ Walkable ns ∧
      (dotted → ns = [] ∨ ns.getLast? = some Path.hereName))
    (Q := fun l => Stop.Sound t dotted (.atEnd l)) ?_ ?_ ⟨hl, hw, hd⟩ hs
  · rintro m ns l' ⟨hl, hw, hd⟩ hs
    exact walk_sound dotted h hl hw hd hs
  · rintro m ns base ms ⟨hl, hw, hd⟩ hs
    obtain ⟨hbase, hms, hdot⟩ := walk_sound dotted h hl hw hd hs
    exact ⟨hbase, hms, fun hd => Or.inr (hdot hd)⟩

/-- A path leads to a directory or to a place in one. -/
theorem WellFormed.locate (h : t.WellFormed) (hl : t.locate p = .ok l) :
    t.entry? l = some .directory ∨ t.InDirectory l := by
  obtain ⟨-, -, hl⟩ := Except.ok_of_bind hl
  have hsound := walkLinks_sound False h rfl (walkable_steps p) (fun h => h.elim) hl
  exact hsound.imp_right And.right

/-- The last name of a path is at a place in a directory. -/
theorem WellFormed.locateName (h : t.WellFormed) (hl : t.locateName p = .ok (some l)) :
    t.InDirectory l := by
  obtain ⟨d, ns, n, hns, h1, h2, -, rfl, hd⟩ := locateName_some hl
  have hw : Walkable (ns ++ [n]) := hns ▸ walkable_split p.bytes
  have hn := hw n (by simp)
  have hwalk : Walkable (ns ++ [Path.hereName]) :=
    Walkable.append (fun m hm => hw m (List.mem_append_left _ hm)) walkable_here
  have hdir := walkLinks_sound True h rfl hwalk (fun _ => Or.inr (by simp)) hd
  exact ⟨d, n, rfl, hdir.resolve_right fun hn => hn.1 trivial, hn.1, hn.2, h1, h2⟩

/-! ### Walks without links -/

theorem walk_linkFree (h : t.LinkFree) {follow : Bool} {ns : List Name} {s : Stop}
    (hs : t.walk follow l ns = .ok s) : s = .atEnd (ns.foldl Location.descend l) := by
  induction ns generalizing l with
  | nil =>
    cases hs
    rfl
  | cons n ns ih =>
    rw [List.foldl_cons, Location.descend]
    rcases walk_cons hs with ⟨h1, hs⟩ | ⟨h2, hs⟩ | ⟨h1, h2, hs⟩
    · rw [if_pos h1]
      exact ih hs
    · rw [if_neg (by rw [h2]; decide), if_pos h2]
      exact ih hs
    · rw [if_neg h1, if_neg h2]
      rcases hs with ⟨-, hs⟩ | ⟨-, rfl, hs, -⟩ | ⟨target, hlink, -⟩
      · exact ih hs
      · exact hs
      · exact absurd hlink (h _ target)

theorem walkLinks_linkFree (h : t.LinkFree) {follow : Bool} {links : Nat} {l l' : Location}
    {ns : List Name} (hs : t.walkLinks follow links l ns = .ok l') :
    l' = ns.foldl Location.descend l := by
  rcases walkLinks_ok hs with hs | ⟨base, ms, k, -, hs, -⟩
  · exact Stop.atEnd.inj (walk_linkFree h hs)
  · exact absurd (walk_linkFree h hs) (by simp)

/-- Without links a path leads to its place. -/
theorem LinkFree.locate (h : t.LinkFree) (hl : t.locate p = .ok l) : l = p.place := by
  obtain ⟨-, -, hl⟩ := Except.ok_of_bind hl
  exact walkLinks_linkFree h hl

theorem LinkFree.locateName (h : t.LinkFree) (hl : t.locateName p = .ok (some l)) : l = p.place := by
  obtain ⟨d, ns, n, hns, h1, h2, -, rfl, hd⟩ := locateName_some hl
  rw [Path.place_eq_foldl, hns, walkLinks_linkFree h hd, List.foldl_append, List.foldl_append]
  simp [Location.descend, h1, h2]

/-! ### One device -/

theorem check_ne_crossesDevices (p : Path) : p.check ≠ .error .crossesDevices := by
  rw [Path.check]
  split_ifs <;> simp

theorem walk_ne_crossesDevices {follow : Bool} {ns : List Name} :
    t.walk follow l ns ≠ .error .crossesDevices := by
  fun_induction walk t follow l ns with
  | case2 _ _ ih => exact ih
  | case3 _ _ _ ih => exact ih
  | case7 => assumption
  | _ => simp

theorem walkLinks_ne_crossesDevices {follow : Bool} {links : Nat} {ns : List Name} :
    t.walkLinks follow links l ns ≠ .error .crossesDevices := by
  fun_induction walkLinks t follow links l ns with
  | case1 _ _ _ _ h =>
    rintro ⟨⟩
    exact walk_ne_crossesDevices h
  | case4 _ _ _ _ _ _ ih => exact ih
  | _ => simp

theorem locateName_ne_crossesDevices : t.locateName p ≠ .error .crossesDevices := by
  refine Except.bind_ne_error (check_ne_crossesDevices p) fun _ => ?_
  refine Except.bind_ne_error walkLinks_ne_crossesDevices fun _ => ?_
  split
  · simp [pure, Except.pure]
  · split_ifs <;> simp [pure, Except.pure, throw, throwThe, MonadExceptOf.throw]

end Tree

end ProposalReview
