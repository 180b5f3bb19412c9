import Mathlib
import ProposalReview.Proofs.Filing.Approach
/-!
Seeding an inbox twice.

      before              first time             second time
      ──────              ──────────             ───────────
      a file              stays                  stays
      nothing             written, counted 1     passed over
      a link to nothing   written where it       passed over
                          leads, counted 1

Whatever stands under the names of the samples, links among them, seeding only adds to the tree. Every
sample that is written is a file that was not there, at one location; so the samples written are counted by
the files that are new. Once all are there, and the inbox is a directory, there is nothing left to add.
-/

namespace ProposalReview

variable {w w' : World} {p inbox : Path}

/-! ### Making a directory that is there -/

namespace Filesystem

theorem Provides.isDirectory (h : Provides p w w') : w'.tree.isDirectory p := by
  rcases h with ⟨t, ht, rfl⟩ | ⟨-, hdir, rfl⟩
  · exact Tree.isDirectory_of_made ht
  · exact hdir

/-- Where directories were made, the path leads to one, through any links; an empty path needs none. -/
theorem makeDirectories_ok (h : (makeDirectories p : StateM World _).run w = (.ok (), w')) :
    p.isEmpty ∨ w'.tree.isDirectory p := by
  rw [makeDirectories] at h
  split_ifs at h with hempty
  · exact .inl hempty
  · rcases makeChain_cases h with h | ⟨-, _, -, h⟩
    · exact .inr h.isDirectory
    · exact .inr h.isDirectory

/-- A directory that is there is not made again. -/
theorem makeDirectories_again (h : p.isEmpty ∨ w.tree.isDirectory p) :
    (makeDirectories p : StateM World _).run w = (.ok (), w) := by
  rw [makeDirectories]
  split_ifs with hempty
  · rfl
  have hdir := h.resolve_left hempty
  have hfind := Tree.isDirectory_iff.mp hdir
  rw [makeChain, StateT.run_bind, makeDirectory_run]
  cases hmake : w.tree.makeDirectory p with
  | ok t => exact absurd hmake (Tree.not_made_of_find hfind)
  | error cause =>
    have hthere : (unlessDirectory p cause : StateM World _).run w = (.ok (), w) := by
      rw [unlessDirectory_run, if_pos hdir]
    cases cause with
    | notFound => exact absurd hmake (Tree.makeDirectory_ne_notFound hfind)
    | _ => exact hthere

end Filesystem

/-! ### Files that are new -/

namespace Tree

variable {t t' u : Tree} {bytes : Bytes} {time : Instant}

/-- Where a file is in the second tree and none is in the first. -/
def newFiles (t t' : Tree) : Set Location := {l | ¬ t.FileAt l ∧ t'.FileAt l}

theorem newFiles_self (t : Tree) : t.newFiles t = ∅ :=
  Set.eq_empty_of_forall_notMem fun _ h => h.1 h.2

/-- A tree in which only directories are new has no new files. -/
theorem newFiles_of_grows (h : t.Grows ∅ t') : t.newFiles u = t'.newFiles u := by
  ext l
  have hsame : t.FileAt l ↔ t'.FileAt l :=
    ⟨fun ⟨bytes, time, hl⟩ => ⟨bytes, time, h.keeps (Set.notMem_empty l) hl⟩,
      h.fileAt (Set.notMem_empty l)⟩
  exact and_congr_left' (not_congr hsame)

/-- A file that is written where nothing is, and stays, is one more new file. -/
theorem encard_newFiles_write (habsent : t.isPresent p = false)
    (h : t.write p bytes time = .ok t') (hext : t'.Extends u) :
    (t.newFiles u).encard = (t'.newFiles u).encard + 1 := by
  obtain ⟨l, hl, -, rfl⟩ := write_ok h
  have hnone := entry?_of_absent hl habsent
  have hne : l ≠ [] := by
    rintro rfl
    cases hnone
  have hput := fun m => entry?_put (t := t) (m := m) (e := .file bytes time) hne
  have hnew : entry? (t.put l (.file bytes time)) l = some (.file bytes time) := by
    rw [hput, if_pos rfl]
  have hinsert : t.newFiles u = insert l ((t.put l (.file bytes time)).newFiles u) := by
    ext m
    by_cases hm : m = l
    · subst hm
      simp [newFiles, FileAt, hnone, hext.keeps hnew]
    · simp [newFiles, FileAt, hput, hm]
  rw [hinsert, Set.encard_insert_of_notMem fun hmem => hmem.1 ⟨bytes, time, hnew⟩]

end Tree

/-! ### Going through the samples -/

namespace Samples

variable {samples : List (String × String)} {n : Nat} {r : Except StoreError Nat}

/-- As many files are new as samples were written. -/
theorem seedEach_count (h : w.exec (seedEach inbox samples) = (.ok n, w')) :
    (w.tree.newFiles w'.tree).encard = n := by
  induction samples generalizing w n with
  | nil =>
    cases h
    simp [Tree.newFiles_self]
  | cons sample rest ih =>
    rcases seedEach_cons_ok h with ⟨-, h⟩ | ⟨habsent, t, k, hwrite, hrest, rfl⟩
    · exact ih h
    · have hext : t.Extends w'.tree := seedEach_extends hrest
      rw [Tree.encard_newFiles_write habsent hwrite hext, Nat.cast_add_one]
      exact congrArg (· + 1) (ih hrest)

/-- Samples that are all there are passed over. -/
theorem seedEach_again (h : ∀ x ∈ samples, w.tree.isPresent (inbox.join (.ofString x.1))) :
    w.exec (seedEach inbox samples) = (.ok 0, w) := by
  induction samples with
  | nil => rfl
  | cons sample rest ih =>
    obtain ⟨hsample, hrest⟩ := List.forall_mem_cons.mp h
    have hlook : (Filesystem.isPresent (inbox.join (.ofString sample.1)) : StateM World Bool).run w
        = (true, w) := congrArg (·, w) hsample
    rw [seedEach, World.exec_bind, World.exec_lift, hlook]
    exact ih hrest

/-! ### Seeding -/

/-- Seeding fails to create the inbox, or goes through the samples in the one that is there. -/
theorem seed_cases (h : w.exec (seed inbox) = (r, w')) :
    w.tree.Extends w'.tree ∧ (∀ n, r ≠ .ok n) ∨ ∃ w₁ : World, w.tree.Grows ∅ w₁.tree ∧
      (inbox.isEmpty ∨ w₁.tree.isDirectory inbox) ∧ w.tree.Extends w₁.tree ∧
      w₁.exec (seedEach inbox all) = (r, w') := by
  have hcreate : ∀ {q : Except StoreError Unit} {v : World}, w.exec (Filing.create inbox) = (q, v) →
      w.tree.Extends v.tree ∧ w.tree.Grows ∅ v.tree := by
    intro q v hv
    obtain ⟨t, ht, rfl⟩ := (Filing.create_keeps allowsMaking_extends inbox).exec hv
    obtain ⟨t', ht', hsame⟩ := (Filing.create_keeps (allowsMaking_grows ∅) inbox).exec hv
    exact ⟨ht, by rw [hsame]; exact ht'⟩
  rcases World.exec_bind_cases h with ⟨e, hfail, rfl⟩ | ⟨_, w₁, hmade, h⟩
  · exact .inl ⟨(hcreate hfail).1, by simp⟩
  · refine .inr ⟨w₁, (hcreate hmade).2, ?_, (hcreate hmade).1, h⟩
    rw [World.exec_attempt] at hmade
    rcases hmake : (Filesystem.makeDirectories inbox : StateM World _).run w with ⟨cause | _, v⟩
    · rw [hmake] at hmade
      cases hmade
    · rw [hmake] at hmade
      cases hmade
      exact Filesystem.makeDirectories_ok hmake

/-- Where the inbox and all samples are there, seeding does nothing. -/
theorem seed_again (hdir : inbox.isEmpty ∨ w.tree.isDirectory inbox)
    (hall : ∀ x ∈ all, w.tree.isPresent (inbox.join (.ofString x.1))) :
    w.exec (seed inbox) = (.ok 0, w) := by
  rw [seed, World.exec_bind, World.exec_attempt, Filesystem.makeDirectories_again hdir]
  exact seedEach_again hall

/-- Seeding an inbox leaves every file as it was, and as it is read at any path, however it ends. When it
succeeds it counts the files that are new, every sample is there, and to seed again does nothing. -/
theorem seed_adds (h : w.exec (seed inbox) = (r, w')) :
    (∀ l bytes time, w.tree.entry? l = some (.file bytes time) →
        w'.tree.entry? l = some (.file bytes time)) ∧
      (∀ q bytes, w.tree.content q = .ok bytes → w'.tree.content q = .ok bytes) ∧
      ∀ n, r = .ok n →
        (w.tree.newFiles w'.tree).encard = n ∧
        (∀ x ∈ all, w'.tree.isPresent (inbox.join (.ofString x.1))) ∧
        ∀ v : World, v.tree = w'.tree → v.exec (seed inbox) = (.ok 0, v) := by
  rcases seed_cases h with ⟨hext, hfail⟩ | ⟨w₁, hgrows, hdir, hext, h⟩
  · exact ⟨fun _ _ _ => hext.keeps, fun _ _ => hext.content, fun n hn => absurd hn (hfail n)⟩
  have hseeded := seedEach_extends h
  refine ⟨fun _ _ _ hl => hseeded.keeps (hext.keeps hl),
    fun _ _ hq => hseeded.content (hext.content hq), ?_⟩
  rintro n rfl
  have hall := seedEach_present h
  refine ⟨?_, hall, fun v hv => seed_again ?_ (hv ▸ hall)⟩
  · rw [Tree.newFiles_of_grows hgrows, seedEach_count h]
  · rw [hv]
    exact hdir.imp_right hseeded.isDirectory

/-- An inbox in which one sample's name is a link to another's, where nothing is yet. -/
def linked : World :=
  { tree := ⟨[([[0x69]], .directory),
      ([[0x69], Text.encodeString "PRJ-PIPELINE-PASS_v1.md"],
        .link (.ofString "PRJ-PIPELINE-FAIL-KPI_v1.md"))]⟩ }

theorem seed_adds_linked : ∃ w', linked.exec (seed ⟨[0x69]⟩) = (.ok 2, w') ∧
    (linked.tree.newFiles w'.tree).encard = 2 ∧
    (∀ x ∈ all, w'.tree.isPresent (Path.join ⟨[0x69]⟩ (.ofString x.1))) ∧
    w'.exec (seed ⟨[0x69]⟩) = (.ok 0, w') := by
  obtain ⟨n, w', hrun, rfl⟩ := World.exists_of_seen (w := linked) (x := seed ⟨[0x69]⟩) (g := id)
    (b := 2) (by decide +kernel)
  obtain ⟨hcount, hall, hagain⟩ := (seed_adds hrun).2.2 2 rfl
  exact ⟨w', hrun, hcount, hall, hagain w' rfl⟩

end Samples

end ProposalReview
