import Mathlib
import ProposalReview.Proofs.Filing.Walk
/-!
What operations change in a tree.

A tree grows outside a set of locations if everything there stays, and only directories are new. Making
directories lets every tree grow everywhere; writing lets a tree without links grow outside the place
of the path that is written to. Both keep trees well-formed and without links. What moving a file does
is said exactly.
-/

namespace ProposalReview.Tree

variable {t t' t₁ t₂ : Tree} {S T : Set Location} {l : Location} {p q : Path} {e : Entry}

/-! ### Operations that succeed -/

theorem makeDirectory_ok (h : t.makeDirectory p = .ok t') : ∃ l, t.locateName p = .ok (some l) ∧
    t.entry? l = none ∧ t' = t.put l .directory := by
  obtain ⟨r, hr, h⟩ := Except.ok_of_bind h
  cases r with
  | none => cases h
  | some l =>
    simp only at h
    split_ifs at h with hl
    exact ⟨l, hr, by simpa using hl, (Except.ok.inj h).symm⟩

theorem write_ok {bytes : Bytes} {now : Instant} (h : t.write p bytes now = .ok t') :
    ∃ l, t.locate p = .ok l ∧ t.entry? l ≠ some .directory ∧ t' = t.put l (.file bytes now) := by
  obtain ⟨l, hl, h⟩ := Except.ok_of_bind h
  refine ⟨l, hl, ?_⟩
  by_cases hs : p.bytes.getLast? = some slash
  · rw [if_pos hs] at h
    cases h
  rw [if_neg hs] at h
  simp only at h
  split at h
  · cases h
  · next hdir => exact ⟨hdir, (Except.ok.inj h).symm⟩

theorem rename_ok (h : t.rename p q = .ok t') : ∃ source dest e, t.locateName p = .ok (some source) ∧
    t.locateName q = .ok (some dest) ∧ t.entry? source = some e ∧
    (source = dest ∧ t' = t ∨
      source ≠ dest ∧ t.checkReplace (e == .directory) dest = .ok () ∧ t' = t.relocate source dest) := by
  obtain ⟨s, hs, h⟩ := Except.ok_of_bind h
  obtain ⟨d, hd, h⟩ := Except.ok_of_bind h
  cases s with
  | none => cases h
  | some source =>
    cases d with
    | none => cases h
    | some dest =>
      simp only at h
      cases he : t.entry? source with
      | none =>
        rw [he] at h
        cases h
      | some e =>
        rw [he] at h
        refine ⟨source, dest, e, hs, hd, he, ?_⟩
        simp only at h
        split_ifs at h with h1 h2 h3 h4
        · exact Or.inl ⟨h2, (Except.ok.inj h).symm⟩
        · obtain ⟨_, hr, h⟩ := Except.ok_of_bind h
          exact Or.inr ⟨h2, hr, (Except.ok.inj h).symm⟩

theorem find_ok (h : t.find p = .ok e) : ∃ l, t.locate p = .ok l ∧ t.entry? l = some e := by
  obtain ⟨l, hl, h⟩ := Except.ok_of_bind h
  cases he : t.entry? l with
  | none =>
    rw [he] at h
    cases h
  | some e' =>
    rw [he] at h
    exact ⟨l, hl, by rw [he, Except.ok.inj h]⟩

theorem find_of_locate (hl : t.locate p = .ok l) (he : t.entry? l = some e) : t.find p = .ok e := by
  rw [find, hl]
  simp only [bind, Except.bind, he]
  rfl

theorem isDirectory_iff : t.isDirectory p = true ↔ t.find p = .ok .directory := by
  rw [isDirectory]
  split <;> simp_all

theorem isPresent_iff : t.isPresent p = true ↔ ∃ e, t.find p = .ok e := by
  rw [isPresent]
  cases t.find p <;> simp [Except.isOk, Except.toBool]

/-- Where a path leads to nothing, nothing stands at its location. -/
theorem entry?_of_absent (hl : t.locate p = .ok l) (habsent : t.isPresent p = false) :
    t.entry? l = none := by
  cases he : t.entry? l with
  | none => rfl
  | some e =>
    rw [isPresent, find_of_locate hl he] at habsent
    cases habsent

theorem checkReplace_ne_crossesDevices {isDir : Bool} :
    t.checkReplace isDir l ≠ .error .crossesDevices := by
  rw [checkReplace]
  split
  · simp
  · split_ifs <;> simp
  · split_ifs <;> simp

/-- All of a tree is on one device. -/
theorem rename_ne_crossesDevices : t.rename p q ≠ .error .crossesDevices := by
  refine Except.bind_ne_error locateName_ne_crossesDevices fun source => ?_
  refine Except.bind_ne_error locateName_ne_crossesDevices fun dest => ?_
  cases source with
  | none => rintro ⟨⟩
  | some s =>
    cases dest with
    | none => rintro ⟨⟩
    | some d =>
      simp only
      cases t.entry? s with
      | none => rintro ⟨⟩
      | some e =>
        simp only
        split_ifs
        · rintro ⟨⟩
        · rintro ⟨⟩
        · rintro ⟨⟩
        · rintro ⟨⟩
        · exact Except.bind_ne_error checkReplace_ne_crossesDevices fun _ => by rintro ⟨⟩

/-! ### Growing -/

/-- Outside a set of locations everything stays, and only directories are new. -/
def Grows (S : Set Location) (t t' : Tree) : Prop :=
  ∀ l ∉ S, t'.entry? l = t.entry? l ∨ t.entry? l = none ∧ t'.entry? l = some .directory

theorem Grows.refl (S : Set Location) (t : Tree) : t.Grows S t := fun _ _ => Or.inl rfl

theorem Grows.trans (h : t.Grows S t₁) (h' : t₁.Grows S t₂) : t.Grows S t₂ := by
  intro l hl
  rcases h l hl with h1 | ⟨h1, h2⟩
  · rw [← h1]
    exact h' l hl
  · refine Or.inr ⟨h1, ?_⟩
    rcases h' l hl with h3 | ⟨h3, -⟩
    · rw [h3, h2]
    · rw [h2] at h3
      cases h3

theorem Grows.mono (h : t.Grows S t') (hST : S ⊆ T) : t.Grows T t' :=
  fun l hl => h l fun hS => hl (hST hS)

/-- A change in some places, then one in others. -/
theorem Grows.trans_union (h : t.Grows S t₁) (h' : t₁.Grows T t₂) : t.Grows (S ∪ T) t₂ :=
  (h.mono Set.subset_union_left).trans (h'.mono Set.subset_union_right)

/-- What stood outside the set stays. -/
theorem Grows.keeps (h : t.Grows S t') (hl : l ∉ S) (he : t.entry? l = some e) :
    t'.entry? l = some e := by
  rcases h l hl with h1 | ⟨h1, -⟩
  · rw [h1, he]
  · rw [he] at h1
    cases h1

/-- No file is new outside the set. -/
theorem Grows.fileAt (h : t.Grows S t') (hl : l ∉ S) (hf : t'.FileAt l) : t.FileAt l := by
  obtain ⟨bytes, time, hf⟩ := hf
  rcases h l hl with h1 | ⟨-, h1⟩
  · exact ⟨bytes, time, h1 ▸ hf⟩
  · rw [h1] at hf
    cases hf

/-- A change that keeps the tree sound and lets it grow outside a set of locations. -/
structure Steady (S : Set Location) (t t' : Tree) : Prop where
  wellFormed : t.WellFormed → t'.WellFormed
  linkFree : t.LinkFree → t'.LinkFree
  grows : t.LinkFree → t.Grows S t'

theorem Steady.refl (S : Set Location) (t : Tree) : t.Steady S t := ⟨id, id, fun _ => Grows.refl S t⟩

theorem Steady.trans (h : t.Steady S t₁) (h' : t₁.Steady S t₂) : t.Steady S t₂ :=
  ⟨h'.wellFormed ∘ h.wellFormed, h'.linkFree ∘ h.linkFree,
    fun hl => (h.grows hl).trans (h'.grows (h.linkFree hl))⟩

theorem Steady.mono (h : t.Steady S t') (hST : S ⊆ T) : t.Steady T t' :=
  ⟨h.wellFormed, h.linkFree, fun hl => (h.grows hl).mono hST⟩

/-- Making a directory lets every tree grow everywhere. -/
theorem makeDirectory_grows (h : t.makeDirectory p = .ok t') : t.Grows ∅ t' := by
  obtain ⟨l, -, hnone, rfl⟩ := makeDirectory_ok h
  have hl : l ≠ [] := by
    rintro rfl
    cases hnone
  intro m _
  rw [entry?_put hl]
  split_ifs with hm
  · exact Or.inr ⟨hm ▸ hnone, rfl⟩
  · exact Or.inl rfl

theorem makeDirectory_steady (h : t.makeDirectory p = .ok t') : t.Steady ∅ t' := by
  refine ⟨fun hw => ?_, fun hf => ?_, fun _ => makeDirectory_grows h⟩
  · obtain ⟨l, hl, hnone, rfl⟩ := makeDirectory_ok h
    obtain ⟨d, n, rfl, hd, hn⟩ := hw.locateName hl
    exact hw.put hd hn (by simp [hnone])
  · obtain ⟨l, -, hnone, rfl⟩ := makeDirectory_ok h
    exact hf.put (by rintro rfl; cases hnone) (by simp)

/-- What a tree without links looks like after a path was written to. -/
theorem LinkFree.entry?_write {bytes : Bytes} {now : Instant} (hf : t.LinkFree)
    (h : t.write p bytes now = .ok t') : t.entry? p.place ≠ some .directory ∧
      ∀ l, t'.entry? l = if l = p.place then some (.file bytes now) else t.entry? l := by
  obtain ⟨l, hl, hdir, rfl⟩ := write_ok h
  rw [← hf.locate hl]
  refine ⟨hdir, fun m => entry?_put ?_⟩
  rintro rfl
  exact hdir rfl

/-- Writing to a path lets a tree without links grow outside the path's place. -/
theorem write_steady {bytes : Bytes} {now : Instant} (h : t.write p bytes now = .ok t') :
    t.Steady {p.place} t' := by
  obtain ⟨l, hl, hdir, rfl⟩ := write_ok h
  have hne : l ≠ [] := by
    rintro rfl
    exact hdir rfl
  refine ⟨fun hw => ?_, fun hf => hf.put hne (by simp), fun hf m hm => ?_⟩
  · obtain ⟨d, n, rfl, hd, hn⟩ := (hw.locate hl).resolve_left hdir
    exact hw.put hd hn hdir
  · rw [entry?_put hne, if_neg]
    · exact Or.inl rfl
    · rwa [hf.locate hl]

/-! ### Adding only -/

/-- A change that keeps the tree sound and everything in it. -/
structure Extends (t t' : Tree) : Prop where
  wellFormed : t.WellFormed → t'.WellFormed
  linkFree : t.LinkFree → t'.LinkFree
  keeps : ∀ {l e}, t.entry? l = some e → t'.entry? l = some e

theorem makeDirectory_extends (h : t.makeDirectory p = .ok t') : t.Extends t' :=
  ⟨(makeDirectory_steady h).wellFormed, (makeDirectory_steady h).linkFree,
    (makeDirectory_grows h).keeps (Set.notMem_empty _)⟩

/-- Writing to a path where nothing was adds to the tree. -/
theorem write_extends {bytes : Bytes} {now : Instant} (habsent : t.isPresent p = false)
    (h : t.write p bytes now = .ok t') : t.Extends t' := by
  refine ⟨(write_steady h).wellFormed, (write_steady h).linkFree, fun {m e} he => ?_⟩
  obtain ⟨l, hl, hdir, rfl⟩ := write_ok h
  have hfree := entry?_of_absent hl habsent
  have hne : l ≠ [] := by
    rintro rfl
    exact hdir rfl
  rw [entry?_put hne, if_neg, he]
  rintro rfl
  rw [hfree] at he
  cases he

instance : IsPreorder Tree (Grows S) where
  refl := Grows.refl S
  trans _ _ _ := Grows.trans

instance : IsPreorder Tree (Steady S) where
  refl := Steady.refl S
  trans _ _ _ := Steady.trans

instance : IsPreorder Tree Extends where
  refl _ := ⟨id, id, id⟩
  trans _ _ _ h h' := ⟨h'.wellFormed ∘ h.wellFormed, h'.linkFree ∘ h.linkFree, h'.keeps ∘ h.keeps⟩

/-! ### Moving a file -/

/-- What a tree without links looks like after a file was moved. -/
structure Moved (source dest : Location) (t t' : Tree) : Prop where
  wellFormed : t'.WellFormed
  linkFree : t'.LinkFree
  replaced : t.entry? dest ≠ some .directory
  entry? : ∀ l, t'.entry? l
    = if l = dest then t.entry? source else if l = source then none else t.entry? l

theorem rename_moved (hw : t.WellFormed) (hf : t.LinkFree) (hfile : t.FileAt p.place)
    (hne : p.place ≠ q.place) (h : t.rename p q = .ok t') : t.Moved p.place q.place t' := by
  obtain ⟨source, dest, e, hs, hd, he, h⟩ := rename_ok h
  obtain ⟨d, n, hdest, hdir, hn⟩ := hw.locateName hd
  rw [hf.locateName hs] at he h
  rw [hf.locateName hd] at h hdest
  obtain ⟨-, hcheck, rfl⟩ := h.resolve_left fun h => hne h.1
  have hreplaced : t.entry? q.place ≠ some .directory := by
    intro hq
    have hfalse : (e == .directory) = false := beq_false_of_ne (by
      rintro rfl
      exact hfile.not_directory he)
    rw [checkReplace, hq, hfalse] at hcheck
    cases hcheck
  have hqne : q.place ≠ [] := by simp [hdest]
  refine ⟨?_, hf.relocate hw hfile hne hqne, hreplaced, fun l => hw.entry?_relocate hfile hne hqne⟩
  rw [hdest] at hne hreplaced ⊢
  exact hw.relocate hfile hdir hn hreplaced hne

end ProposalReview.Tree
