import Mathlib
import ProposalReview.Proofs.Filing.Place
/-!
Trees that are well-formed, and what single changes do to them.

In a well-formed tree nothing stands twice at one location, every name is valid, and everything
stands in a directory. Putting an entry into a directory and moving a file keep a tree well-formed;
`entry?_put` and `entry?_relocate` say what stands where afterwards.
-/

namespace ProposalReview

/-- Whether an entry is a link. -/
def Entry.isLink : Entry → Bool
  | .link _ => true
  | _ => false

namespace Tree

variable {t t' : Tree} {l m source dest : Location} {n : Name} {e : Entry}

/-- A tree that could stand on a disk. -/
structure WellFormed (t : Tree) : Prop where
  keys : (t.entries.map Prod.fst).Nodup
  valid : ∀ {l n e}, t.entry? (l ++ [n]) = some e → Name.Valid n
  parent : ∀ {l n e}, t.entry? (l ++ [n]) = some e → t.entry? l = some .directory

/-- A tree without symbolic links. -/
def LinkFree (t : Tree) : Prop := ∀ l target, t.entry? l ≠ some (.link target)

/-- Whether a file stands at a location. -/
def FileAt (t : Tree) (l : Location) : Prop := ∃ bytes time, t.entry? l = some (.file bytes time)

@[simp] theorem entry?_nil (t : Tree) : t.entry? [] = some .directory := rfl

theorem FileAt.ne_nil (h : t.FileAt l) : l ≠ [] := by
  obtain ⟨bytes, time, h⟩ := h
  rintro rfl
  simp at h

theorem FileAt.not_directory (h : t.FileAt l) : t.entry? l ≠ some .directory := by
  obtain ⟨bytes, time, h⟩ := h
  simp [h]

/-! ### What stands where -/

theorem lookup_cons_ite (k m : Location) (e : Entry) (es : List (Location × Entry)) :
    ((k, e) :: es).lookup m = if m = k then some e else es.lookup m := by
  by_cases h : m = k
  · rw [h, List.lookup_cons_self, if_pos rfl]
  · rw [List.lookup_cons, beq_false_of_ne h, if_neg h]

theorem lookup_filter_ne (l m : Location) (es : List (Location × Entry)) :
    (es.filter (·.1 ≠ l)).lookup m = if m = l then none else es.lookup m := by
  induction es with
  | nil => simp
  | cons x es ih =>
    obtain ⟨k, e⟩ := x
    rw [List.filter_cons, lookup_cons_ite]
    by_cases hk : k = l
    · rw [if_neg (by simpa using hk), ih, hk]
      split_ifs <;> rfl
    · rw [if_pos (by simpa using hk), lookup_cons_ite, ih]
      by_cases hm : m = k
      · rw [if_pos hm, if_neg (by rwa [hm]), if_pos hm]
      · rw [if_neg hm, if_neg hm]

theorem mem_iff_lookup {es : List (Location × Entry)} (h : (es.map Prod.fst).Nodup) :
    (l, e) ∈ es ↔ es.lookup l = some e := by
  induction es with
  | nil => simp
  | cons x es ih =>
    obtain ⟨k, e'⟩ := x
    rw [List.map_cons, List.nodup_cons] at h
    rw [List.mem_cons, lookup_cons_ite, ih h.2]
    by_cases hlk : l = k
    · subst hlk
      have hnot : es.lookup l ≠ some e := by
        intro he
        exact h.1 (List.mem_map.mpr ⟨(l, e), (ih h.2).mpr he, rfl⟩)
      simp [hnot, eq_comm]
    · simp [hlk]

theorem entry?_of_ne_nil (h : l ≠ []) : t.entry? l = t.entries.lookup l := if_neg h

theorem entry?_put (hl : l ≠ []) : entry? (t.put l e) m = if m = l then some e else t.entry? m := by
  by_cases hm : m = []
  · subst hm
    simp [Ne.symm hl]
  · rw [entry?_of_ne_nil hm, entry?_of_ne_nil hm, put, erase, lookup_cons_ite, lookup_filter_ne]
    split_ifs <;> rfl

/-! ### Checking a tree -/

theorem mem_of_lookup {es : List (Location × Entry)} (h : es.lookup l = some e) : (l, e) ∈ es := by
  induction es with
  | nil => simp at h
  | cons x es ih =>
    obtain ⟨k, e'⟩ := x
    rw [lookup_cons_ite] at h
    split_ifs at h with hk
    · rw [hk, Option.some_inj.mp h]
      exact List.mem_cons_self
    · exact List.mem_cons_of_mem _ (ih h)

/-- A tree is well-formed if each of its entries has a place of its own, in a directory and under a
valid name; that can be computed. -/
theorem WellFormed.of_entries (hkeys : (t.entries.map Prod.fst).Nodup)
    (hall : ∀ x ∈ t.entries, ∃ h : x.1 ≠ [], Name.Valid (x.1.getLast h) ∧
      t.entry? x.1.dropLast = some .directory) : t.WellFormed := by
  have hmem : ∀ {l n e}, t.entry? (l ++ [n]) = some e →
      Name.Valid n ∧ t.entry? l = some .directory := by
    intro l n e he
    rw [entry?_of_ne_nil (by simp)] at he
    obtain ⟨_, hn, hl⟩ := hall _ (mem_of_lookup he)
    exact ⟨by simpa using hn, by simpa using hl⟩
  exact ⟨hkeys, fun h => (hmem h).1, fun h => (hmem h).2⟩

theorem LinkFree.of_entries (hall : ∀ x ∈ t.entries, x.2.isLink = false) : t.LinkFree := by
  intro l target he
  by_cases hl : l = []
  · rw [hl, entry?_nil] at he
    cases he
  · rw [entry?_of_ne_nil hl] at he
    exact Bool.noConfusion (hall _ (mem_of_lookup he))

/-! ### Putting an entry -/

theorem WellFormed.put (h : t.WellFormed) (hd : t.entry? l = some .directory) (hn : Name.Valid n)
    (he : t.entry? (l ++ [n]) ≠ some .directory) : (t.put (l ++ [n]) e).WellFormed := by
  have hne : l ++ [n] ≠ [] := by simp
  have hself : l ≠ l ++ [n] := by simp
  refine ⟨?_, ?_, ?_⟩
  · have hsub := (List.filter_sublist (p := fun x : Location × Entry => x.1 ≠ l ++ [n])
      (l := t.entries)).map Prod.fst
    rw [Tree.put, List.map_cons, List.nodup_cons]
    exact ⟨by simp [erase], h.keys.sublist hsub⟩
  · intro k m e' hm
    rw [entry?_put hne] at hm
    split_ifs at hm with hk
    · obtain ⟨-, hk⟩ := List.append_inj' hk rfl
      rwa [List.singleton_injective hk]
    · exact h.valid hm
  · intro k m e' hm
    rw [entry?_put hne] at hm ⊢
    split_ifs at hm with hk
    · obtain ⟨rfl, -⟩ := List.append_inj' hk rfl
      rw [if_neg hself, hd]
    · have hk' : k ≠ l ++ [n] := by
        rintro rfl
        exact he (h.parent hm)
      rw [if_neg hk', h.parent hm]

theorem LinkFree.put (h : t.LinkFree) (hl : l ≠ []) (he : ∀ target, e ≠ .link target) :
    (t.put l e).LinkFree := by
  intro m target
  rw [entry?_put hl]
  split_ifs
  · simpa using he target
  · exact h m target

/-! ### Moving a file -/

theorem WellFormed.mem_entries (h : t.WellFormed) (hl : l ≠ []) :
    (l, e) ∈ t.entries ↔ t.entry? l = some e := by
  rw [entry?_of_ne_nil hl, mem_iff_lookup h.keys]

/-- What stands above something is a directory. -/
theorem WellFormed.above (h : t.WellFormed) {ns : List Name} (hne : ns ≠ [])
    (hs : (t.entry? (l ++ ns)).isSome) : t.entry? l = some .directory := by
  induction ns generalizing l with
  | nil => exact absurd rfl hne
  | cons n ns ih =>
    obtain ⟨e, he⟩ : ∃ e, t.entry? (l ++ [n]) = some e := by
      by_cases hns : ns = []
      · exact Option.isSome_iff_exists.mp (by rwa [hns] at hs)
      · exact ⟨_, ih hns (by rwa [List.append_assoc, List.singleton_append])⟩
    exact h.parent he

theorem WellFormed.carried_key (h : t.WellFormed) (hs : t.FileAt source) {k : Location}
    (hk : (k, e) ∈ t.entries) : carried source dest k = if k = source then dest else k := by
  rw [carried]
  by_cases hp : source <+: k
  · obtain ⟨ns, rfl⟩ := hp
    rcases eq_or_ne ns [] with rfl | hns
    · simp
    · have hne : source ++ ns ≠ [] := by simp [hns]
      have hsome := Option.isSome_of_mem ((h.mem_entries hne).mp hk)
      exact absurd (h.above hns hsome) hs.not_directory
  · have hks : k ≠ source := by
      rintro rfl
      exact hp (List.prefix_refl k)
    rw [if_neg (by simpa using hp), if_neg hks]

theorem WellFormed.keys_relocate (h : t.WellFormed) (hs : t.FileAt source) :
    ((t.relocate source dest).entries.map Prod.fst).Nodup := by
  have hkeys : ((t.erase dest).entries.map Prod.fst).Nodup :=
    h.keys.sublist (List.filter_sublist.map _)
  have hmap : (t.relocate source dest).entries.map Prod.fst
      = ((t.erase dest).entries.map Prod.fst).map fun k => if k = source then dest else k := by
    rw [relocate, List.map_map, List.map_map]
    refine List.map_congr_left fun x hx => ?_
    exact h.carried_key hs (List.mem_of_mem_filter hx)
  have hnot : ∀ k ∈ (t.erase dest).entries.map Prod.fst, k ≠ dest := by
    intro k hk
    obtain ⟨x, hx, rfl⟩ := List.mem_map.mp hk
    simpa using (List.mem_filter.mp hx).2
  rw [hmap]
  refine hkeys.map_on fun a ha b hb hab => ?_
  split_ifs at hab with h1 h2 h2
  · rw [h1, h2]
  · exact absurd hab.symm (hnot b hb)
  · exact absurd hab (hnot a ha)
  · exact hab

theorem WellFormed.mem_relocate (h : t.WellFormed) (hs : t.FileAt source) (hne : source ≠ dest)
    {k : Location} : (k, e) ∈ (t.relocate source dest).entries ↔
      (k = dest ∧ (source, e) ∈ t.entries) ∨ (k ≠ dest ∧ k ≠ source ∧ (k, e) ∈ t.entries) := by
  rw [relocate, List.mem_map]
  constructor
  · rintro ⟨⟨k', e'⟩, hk', heq⟩
    simp only [erase, List.mem_filter, decide_eq_true_eq] at hk'
    obtain ⟨hk', hd⟩ := hk'
    simp only [h.carried_key hs hk', Prod.mk.injEq] at heq
    obtain ⟨rfl, rfl⟩ := heq
    by_cases hks : k' = source
    · subst hks
      exact Or.inl ⟨if_pos rfl, hk'⟩
    · rw [if_neg hks]
      exact Or.inr ⟨hd, hks, hk'⟩
  · rintro (⟨rfl, hk⟩ | ⟨hd, hks, hk⟩)
    · refine ⟨(source, e), ?_, ?_⟩
      · simpa [erase, hne] using hk
      · simp [h.carried_key hs hk]
    · refine ⟨(k, e), ?_, ?_⟩
      · simpa [erase, hd] using hk
      · simp [h.carried_key hs hk, hks]

/-- After a file was moved it stands at its new place only, and all else is where it was. -/
theorem WellFormed.entry?_relocate (h : t.WellFormed) (hs : t.FileAt source) (hne : source ≠ dest)
    (hd : dest ≠ []) : entry? (t.relocate source dest) m
      = if m = dest then t.entry? source else if m = source then none else t.entry? m := by
  have hsn := hs.ne_nil
  by_cases hm : m = []
  · subst hm
    rw [if_neg (Ne.symm hd), if_neg (Ne.symm hsn)]
    rfl
  · ext e
    rw [entry?_of_ne_nil hm, ← mem_iff_lookup (h.keys_relocate hs), h.mem_relocate hs hne]
    split_ifs with h1 h2
    · simp [h1, h.mem_entries hsn]
    · simp [h2, hne]
    · simp [h1, h2, h.mem_entries hm]

/-- Moving a file to a place in a directory, where no directory stands, keeps a tree well-formed. -/
theorem WellFormed.relocate (h : t.WellFormed) (hs : t.FileAt source)
    (hd : t.entry? l = some .directory) (hn : Name.Valid n)
    (he : t.entry? (l ++ [n]) ≠ some .directory) (hne : source ≠ l ++ [n]) :
    (t.relocate source (l ++ [n])).WellFormed := by
  have hentry : ∀ m, _ := fun m => h.entry?_relocate (m := m) hs hne (by simp)
  have hself : l ≠ l ++ [n] := by simp
  have hls : l ≠ source := by
    rintro rfl
    exact hs.not_directory hd
  refine ⟨h.keys_relocate hs, ?_, ?_⟩
  · intro k m e' hm
    rw [hentry] at hm
    split_ifs at hm with hk
    · obtain ⟨-, hk⟩ := List.append_inj' hk rfl
      rwa [List.singleton_injective hk]
    · exact h.valid hm
  · intro k m e' hm
    rw [hentry] at hm ⊢
    split_ifs at hm with hk hk'
    · obtain ⟨rfl, -⟩ := List.append_inj' hk rfl
      rw [if_neg hself, if_neg hls, hd]
    · have hdir := h.parent hm
      have h1 : k ≠ l ++ [n] := by
        rintro rfl
        exact he hdir
      have h2 : k ≠ source := by
        rintro rfl
        exact hs.not_directory hdir
      rw [if_neg h1, if_neg h2, hdir]

theorem LinkFree.relocate (h : t.LinkFree) (hw : t.WellFormed) (hs : t.FileAt source)
    (hne : source ≠ dest) (hd : dest ≠ []) : (t.relocate source dest).LinkFree := by
  intro m target
  rw [hw.entry?_relocate hs hne hd]
  split_ifs
  · exact h source target
  · simp
  · exact h m target

end Tree

end ProposalReview
