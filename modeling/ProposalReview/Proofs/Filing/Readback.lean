import Mathlib
import ProposalReview.Proofs.Filing.Change
/-!
What was written is read back.

A walk that succeeds does so in the same way in a tree that has another file, or none, where no
directory and no link is: a walk can only end there. So a path leads to the same location after a file
was written anywhere, through any links, and what was written to a path is read there. What a path leads
to it leads to in every tree that has more in it.
-/

namespace ProposalReview.Tree

variable {t t' : Tree} {l m : Location} {p : Path} {bytes : Bytes} {time : Instant}

/-- Whether nothing but a file is at a location. -/
def Writable (t : Tree) (l : Location) : Prop := t.entry? l = none ∨ t.FileAt l

theorem Writable.ne_nil (h : t.Writable l) : l ≠ [] := by
  rintro rfl
  rcases h with h | h
  · cases h
  · exact h.ne_nil rfl

theorem Writable.not_directory (h : t.Writable l) : t.entry? l ≠ some .directory := by
  rcases h with h | h
  · simp [h]
  · exact h.not_directory

theorem Writable.not_link (h : t.Writable l) (target : Path) : t.entry? l ≠ some (.link target) := by
  rcases h with h | ⟨_, _, h⟩ <;> simp [h]

/-! ### Walks in two trees -/

/-- A walk that succeeds goes the same way where all directories and links are the same, if what it ends
at can be its end there, too: it passes no other place. -/
theorem walk_of_same (hsame : ∀ k, ¬ t.Writable k → t'.entry? k = t.entry? k) {follow : Bool}
    {ns : List Name} {s : Stop} (hend : ∀ k, s = .atEnd k → t.Writable k → t'.Writable k)
    (hs : t.walk follow m ns = .ok s) : t'.walk follow m ns = .ok s := by
  induction ns generalizing m with
  | nil => exact hs
  | cons n ns ih =>
    rw [Tree.walk] at hs ⊢
    by_cases h1 : n = Path.hereName
    · rw [if_pos h1] at hs ⊢
      exact ih hs
    rw [if_neg h1] at hs ⊢
    by_cases h2 : n = Path.parentName
    · rw [if_pos h2] at hs ⊢
      exact ih hs
    rw [if_neg h2] at hs ⊢
    by_cases h3 : nameLimit < n.length
    · rw [if_pos h3] at hs
      cases hs
    rw [if_neg h3] at hs ⊢
    by_cases hfree : t.Writable (m ++ [n])
    · -- a free place and a file end a walk alike: only as its last name
      have hlast : ns = [] ∧ s = .atEnd (m ++ [n]) := by
        rcases hfree with hnone | ⟨_, _, hfile⟩
        · simp only [hnone] at hs
          split_ifs at hs with hns
          exact ⟨hns, (Except.ok.inj hs).symm⟩
        · simp only [hfile] at hs
          split_ifs at hs with hns
          exact ⟨hns, (Except.ok.inj hs).symm⟩
      obtain ⟨rfl, rfl⟩ := hlast
      rcases hend _ rfl hfree with hnone | ⟨_, _, hfile⟩
      · simp [hnone]
      · simp [hfile]
    · simp only [hsame _ hfree]
      cases he : t.entry? (m ++ [n]) with
      | none => exact absurd (.inl he) hfree
      | some e =>
        cases e with
        | file bytes' time' => exact absurd (.inr ⟨_, _, he⟩) hfree
        | link target => simpa only [he] using hs
        | directory =>
          simp only [he] at hs ⊢
          exact ih hs

theorem walkLinks_of_same (hsame : ∀ k, ¬ t.Writable k → t'.entry? k = t.entry? k) {follow : Bool}
    {links : Nat} {ns : List Name} (hend : t.Writable l → t'.Writable l)
    (hs : t.walkLinks follow links m ns = .ok l) : t'.walkLinks follow links m ns = .ok l := by
  induction links generalizing m ns with
  | zero =>
    rcases walkLinks_ok hs with hs | ⟨_, _, k, hk, -, -⟩
    · rw [walkLinks.eq_def]
      simp only [walk_of_same hsame (by rintro _ ⟨⟩; exact hend) hs]
    · exact absurd hk.symm k.succ_ne_zero
  | succ links ih =>
    rcases walkLinks_ok hs with hs | ⟨base, ms, k, hk, hleap, hs⟩
    · rw [walkLinks.eq_def]
      simp only [walk_of_same hsame (by rintro _ ⟨⟩; exact hend) hs]
    · rw [← Nat.succ_inj.mp hk] at hs
      rw [walkLinks.eq_def]
      simp only [walk_of_same hsame (by rintro _ ⟨⟩) hleap]
      exact ih hs

/-- A path leads to the same location where all directories and links are the same. -/
theorem locate_of_same (hsame : ∀ k, ¬ t.Writable k → t'.entry? k = t.entry? k)
    (hend : t.Writable l → t'.Writable l) (hl : t.locate p = .ok l) : t'.locate p = .ok l := by
  obtain ⟨_, hcheck, hwalk⟩ := Except.ok_of_bind hl
  rw [Tree.locate, hcheck]
  exact walkLinks_of_same hsame hend hwalk

/-- What a path leads to it goes on leading to while the tree is only added to. -/
theorem Extends.find {e : Entry} (h : t.Extends t') (he : t.find p = .ok e) : t'.find p = .ok e := by
  obtain ⟨l, hl, he⟩ := find_ok he
  refine find_of_locate (locate_of_same (fun k hk => ?_) (fun hfree => ?_) hl) (h.keeps he)
  · cases hentry : t.entry? k with
    | none => exact absurd (.inl hentry) hk
    | some e' => exact h.keeps hentry
  · rcases hfree with hnone | ⟨bytes, time, hfile⟩
    · rw [hnone] at he
      cases he
    · exact .inr ⟨bytes, time, h.keeps hfile⟩

theorem Extends.isDirectory (h : t.Extends t') (hp : t.isDirectory p = true) :
    t'.isDirectory p = true :=
  isDirectory_iff.mpr (h.find (isDirectory_iff.mp hp))

theorem Extends.isPresent (h : t.Extends t') (hp : t.isPresent p = true) : t'.isPresent p = true := by
  obtain ⟨e, he⟩ := isPresent_iff.mp hp
  exact isPresent_iff.mpr ⟨e, h.find he⟩

theorem Extends.content (h : t.Extends t') (hc : t.content p = .ok bytes) :
    t'.content p = .ok bytes := by
  obtain ⟨e, he, hc⟩ := Except.ok_of_bind hc
  rw [Tree.content, h.find he]
  exact hc

/-! ### Two trees that differ in a file -/

/-- Two trees that agree but for the file at one location. -/
structure AgreeBut (l : Location) (t t' : Tree) : Prop where
  left : t.Writable l
  right : t'.Writable l
  elsewhere : ∀ m, m ≠ l → t'.entry? m = t.entry? m

theorem AgreeBut.symm (h : AgreeBut l t t') : AgreeBut l t' t :=
  ⟨h.right, h.left, fun m hm => (h.elsewhere m hm).symm⟩

theorem agreeBut_put (hl : t.Writable l) : AgreeBut l t (t.put l (.file bytes time)) := by
  have hput := fun m => entry?_put (t := t) (m := m) (e := .file bytes time) hl.ne_nil
  refine ⟨hl, Or.inr ⟨bytes, time, ?_⟩, fun m hm => ?_⟩
  · rw [hput, if_pos rfl]
  · rw [hput, if_neg hm]

namespace AgreeBut

/-- What is a directory in one of the trees is one in the other. -/
theorem directory (h : AgreeBut l t t') (hm : t.entry? m = some .directory) :
    t'.entry? m = some .directory := by
  rw [h.elsewhere, hm]
  rintro rfl
  exact h.left.not_directory hm

/-- All directories and links are the same in both. -/
theorem same (h : AgreeBut l t t') {k : Location} (hk : ¬ t.Writable k) : t'.entry? k = t.entry? k := by
  refine h.elsewhere k ?_
  rintro rfl
  exact hk h.left

/-- What a walk can end at in one of the trees it can end at in the other. -/
theorem writable (h : AgreeBut l t t') (hm : t.Writable m) : t'.Writable m := by
  by_cases hml : m = l
  · exact hml ▸ h.right
  · rwa [Writable, FileAt, h.elsewhere m hml]

theorem walk (h : AgreeBut l t t') {follow : Bool} {ns : List Name} {s : Stop}
    (hs : t.walk follow m ns = .ok s) : t'.walk follow m ns = .ok s :=
  walk_of_same (fun _ => h.same) (fun _ _ => h.writable) hs

theorem walkLinks (h : AgreeBut l t t') {follow : Bool} {links : Nat} {ns : List Name}
    {m' : Location} (hs : t.walkLinks follow links m ns = .ok m') :
    t'.walkLinks follow links m ns = .ok m' :=
  walkLinks_of_same (fun _ => h.same) h.writable hs

/-- A path leads to the same location in both trees. -/
theorem locate (h : AgreeBut l t t') (hm : t.locate p = .ok m) : t'.locate p = .ok m :=
  locate_of_same (fun _ => h.same) h.writable hm

/-- What a path leads to in one tree it leads to in the other, unless it is the file that they may
differ in. -/
theorem find (h : AgreeBut l t t') {e : Entry} (hne : ∀ m, t.locate p = .ok m → m ≠ l)
    (he : t.find p = .ok e) : t'.find p = .ok e := by
  obtain ⟨m, hm, he⟩ := find_ok he
  refine find_of_locate (h.locate hm) ?_
  rw [h.elsewhere m (hne m hm), he]

end AgreeBut

/-! ### Following links to the end -/

/-- Whether a location and all those above it are directories. -/
def Rooted (t : Tree) (l : Location) : Prop := ∀ k, t.entry? (l.take k) = some .directory

theorem rooted_nil (t : Tree) : t.Rooted [] := fun k => by rw [List.take_nil, entry?_nil]

theorem Rooted.dropLast (h : t.Rooted l) : t.Rooted l.dropLast := by
  intro k
  rw [List.dropLast_eq_take, List.take_take]
  exact h _

theorem Rooted.concat (h : t.Rooted l) {n : Name} (hn : t.entry? (l ++ [n]) = some .directory) :
    t.Rooted (l ++ [n]) := by
  intro k
  by_cases hk : k ≤ l.length
  · rw [List.take_append_of_le_length hk]
    exact h k
  · rwa [List.take_of_length_le (by simp; omega)]

/-- What is known of where a walk that follows links came to, in any tree. -/
def Stop.Grounded (t : Tree) : Stop → Prop
  | .atEnd l => ∀ target, t.entry? l ≠ some (.link target)
  | .leap base _ => t.Rooted base

/-- A walk that follows links does not end at one, and leads on from directories only. -/
theorem walk_grounded {ns : List Name} {s : Stop} (hm : t.Rooted m)
    (h : t.walk true m ns = .ok s) : s.Grounded t := by
  induction ns generalizing m with
  | nil =>
    cases h
    have hdir := hm m.length
    rw [List.take_length] at hdir
    intro target
    simp [hdir]
  | cons n ns ih =>
    rcases walk_cons h with ⟨-, h⟩ | ⟨-, h⟩ | ⟨-, -, h⟩
    · exact ih hm h
    · exact ih hm.dropLast h
    · rcases h with ⟨hdir, h⟩ | ⟨-, -, rfl, hlink⟩ | ⟨target, -, rfl⟩
      · exact ih (hm.concat hdir) h
      · exact fun target hl => absurd (hlink target hl) (by decide)
      · rw [Stop.Grounded]
        split_ifs
        · exact rooted_nil t
        · exact hm

theorem walkLinks_grounded {links : Nat} {ns : List Name} (hm : t.Rooted m)
    (h : t.walkLinks true links m ns = .ok l) (target : Path) : t.entry? l ≠ some (.link target) := by
  refine walkLinks_invariant (P := fun m _ => t.Rooted m)
    (Q := fun l => t.entry? l ≠ some (.link target)) ?_ ?_ hm h
  · intro m ns l' hm h
    exact walk_grounded hm h target
  · intro m ns base ms hm h
    exact walk_grounded hm h

/-- Where a path leads there is no link: a file or nothing, unless it is a directory. -/
theorem locate_writable (h : t.locate p = .ok l) (hdir : t.entry? l ≠ some .directory) :
    t.Writable l := by
  obtain ⟨_, -, hwalk⟩ := Except.ok_of_bind h
  cases he : t.entry? l with
  | none => exact Or.inl he
  | some e =>
    cases e with
    | file bytes time => exact Or.inr ⟨bytes, time, he⟩
    | directory => exact absurd he hdir
    | link target => exact absurd he (walkLinks_grounded (rooted_nil t) hwalk target)

/-- Whether a path can be written to, and where it leads then, does not depend on what is written. -/
theorem write_cases (t : Tree) (p : Path) (time : Instant) :
    (∃ e, ∀ bytes, t.write p bytes time = .error e) ∨
      ∃ l, t.locate p = .ok l ∧ t.Writable l ∧
        ∀ bytes, t.write p bytes time = .ok (t.put l (.file bytes time)) := by
  cases hl : t.locate p with
  | error e => exact .inl ⟨e, fun bytes => by rw [write, hl]; rfl⟩
  | ok l =>
    by_cases hs : p.bytes.getLast? = some slash
    · refine .inl ⟨.isDirectory, fun bytes => ?_⟩
      rw [write, hl]
      simp only [bind, Except.bind, if_pos hs]
      rfl
    by_cases hdir : t.entry? l = some .directory
    · refine .inl ⟨.isDirectory, fun bytes => ?_⟩
      rw [write, hl]
      simp only [bind, Except.bind, if_neg hs, hdir]
      rfl
    · refine .inr ⟨l, rfl, locate_writable hl hdir, fun bytes => ?_⟩
      rw [write, hl]
      simp only [bind, Except.bind, if_neg hs]
      rfl

/-- What is written to a path is read there, in any tree. -/
theorem content_write (h : t.write p bytes time = .ok t') : t'.content p = .ok bytes := by
  obtain ⟨l, hl, hdir, rfl⟩ := write_ok h
  have hfree := locate_writable hl hdir
  have hput := entry?_put (m := l) (e := .file bytes time) (t := t) hfree.ne_nil
  rw [if_pos rfl] at hput
  rw [content, find_of_locate ((agreeBut_put hfree).locate hl) hput]
  rfl

/-- What was written to is there. -/
theorem isPresent_write (h : t.write p bytes time = .ok t') : t'.isPresent p := by
  obtain ⟨e, he, -⟩ := Except.ok_of_bind (content_write h)
  exact isPresent_iff.mpr ⟨e, he⟩

/-- What is read at a path stands where the path leads. -/
theorem content_ok (h : t.content p = .ok bytes) :
    ∃ l time, t.locate p = .ok l ∧ t.entry? l = some (.file bytes time) := by
  obtain ⟨e, hfind, h⟩ := Except.ok_of_bind h
  obtain ⟨l, hlocate, he⟩ := find_ok hfind
  cases e with
  | file bytes' time =>
    cases h
    exact ⟨l, time, hlocate, he⟩
  | directory => cases h
  | link target => cases h

/-- What is read at a path stands at its place, where there are no links. -/
theorem LinkFree.entry?_of_content (hf : t.LinkFree) (h : t.content p = .ok bytes) :
    ∃ time, t.entry? p.place = some (.file bytes time) := by
  obtain ⟨l, time, hlocate, he⟩ := content_ok h
  exact ⟨time, hf.locate hlocate ▸ he⟩

end ProposalReview.Tree
