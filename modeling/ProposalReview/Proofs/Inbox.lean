import Mathlib
import ProposalReview.Proofs.Filing.Effect
/-!
What a scan gives.

The proposals come in the order of their names, each name once, and each was read from the file at its
path in the inbox. A scan changes nothing.
-/

namespace ProposalReview.Inbox

variable {t : Tree} {w w' : World} {inbox : Path} {l : Location} {n : Name}

/-! ### The order of names -/

theorem nameLe_cons {a b : UInt8} {as bs : Name} :
    nameLe (a :: as) (b :: bs) ↔ a < b ∨ a = b ∧ nameLe as bs := by
  rw [nameLe]
  by_cases h : a = b
  · simp [h]
  · simp [h]

theorem nameLe_total (a b : Name) : nameLe a b ∨ nameLe b a := by
  induction a generalizing b with
  | nil => exact Or.inl (by rw [nameLe])
  | cons x as ih =>
    cases b with
    | nil => exact Or.inr rfl
    | cons y bs =>
      rw [nameLe_cons, nameLe_cons]
      rcases eq_or_ne x y with rfl | hne
      · exact (ih bs).imp (fun hle => Or.inr ⟨rfl, hle⟩) fun hle => Or.inr ⟨rfl, hle⟩
      · exact (UInt8.lt_or_lt_of_ne hne).imp Or.inl Or.inl

theorem nameLe_trans {a b c : Name} (h : nameLe a b) (h' : nameLe b c) : nameLe a c := by
  induction a generalizing b c with
  | nil => rw [nameLe]
  | cons x as ih =>
    cases b with
    | nil => cases h
    | cons y bs =>
      cases c with
      | nil => cases h'
      | cons z cs =>
        rw [nameLe_cons] at h h' ⊢
        rcases h with h | ⟨rfl, h⟩
        · rcases h' with h' | ⟨rfl, -⟩
          · exact Or.inl (UInt8.lt_trans h h')
          · exact Or.inl h
        · rcases h' with h' | ⟨rfl, h'⟩
          · exact Or.inl h'
          · exact Or.inr ⟨rfl, ih h h'⟩

instance : Std.Total fun a b : Name => (nameLe a b : Prop) := ⟨nameLe_total⟩

instance : IsTrans Name fun a b => (nameLe a b : Prop) := ⟨fun _ _ _ => nameLe_trans⟩

theorem insertName_eq (n : Name) (ns : List Name) :
    insertName n ns = ns.orderedInsert (nameLe · ·) n := by
  induction ns with
  | nil => rfl
  | cons k ks ih => rw [insertName, List.orderedInsert_cons, ih]

theorem sortNames_eq (ns : List Name) : sortNames ns = ns.insertionSort (nameLe · ·) := by
  induction ns with
  | nil => rfl
  | cons n ns ih =>
    rw [sortNames] at ih ⊢
    rw [List.foldr_cons, ih, insertName_eq, List.insertionSort_cons]

theorem sortNames_perm (ns : List Name) : (sortNames ns).Perm ns := by
  rw [sortNames_eq]
  exact List.perm_insertionSort _ ns

theorem sortNames_pairwise (ns : List Name) : (sortNames ns).Pairwise (nameLe · ·) := by
  rw [sortNames_eq]
  exact List.pairwise_insertionSort _ ns

/-! ### The names in a directory -/

theorem mem_namesIn : n ∈ t.namesIn l ↔ ∃ e, (l ++ [n], e) ∈ t.entries := by
  rw [Tree.namesIn, List.mem_filterMap]
  constructor
  · rintro ⟨⟨k, e⟩, hk, h⟩
    simp only at h
    split_ifs at h with hd
    have hne : k ≠ [] := by
      rintro rfl
      cases h
    rw [List.getLast?_eq_some_getLast hne, Option.some_inj] at h
    refine ⟨e, ?_⟩
    rwa [← hd, ← h, List.dropLast_append_getLast]
  · rintro ⟨e, he⟩
    exact ⟨_, he, by simp⟩

theorem namesIn_nodup (h : t.WellFormed) : (t.namesIn l).Nodup := by
  have hkeys : t.namesIn l = (t.entries.map Prod.fst).filterMap fun k =>
      if k.dropLast = l then k.getLast? else none := by
    rw [List.filterMap_map]
    rfl
  rw [hkeys]
  refine h.keys.filterMap fun k k' n hk hk' => ?_
  simp only [Option.mem_def] at hk hk'
  split_ifs at hk hk' with hd hd'
  rw [← List.dropLast_append_getLast? n hk, ← List.dropLast_append_getLast? n hk', hd, hd']

theorem names_ok {ns : List Name} (h : t.names inbox = .ok ns) :
    ∃ l, t.locate inbox = .ok l ∧ t.entry? l = some .directory ∧ ns = t.namesIn l := by
  obtain ⟨l, hl, h⟩ := Except.ok_of_bind h
  refine ⟨l, hl, ?_⟩
  split at h
  · next hdir => exact ⟨hdir, (Except.ok.inj h).symm⟩
  · cases h
  · cases h

/-- A listing without links has the names of what stands in the directory. -/
theorem mem_listed_iff {ns : List Name} (ht : t.WellFormed) (hf : t.LinkFree)
    (h : t.names inbox = .ok ns) : n ∈ ns ↔ ∃ e, t.entry? (inbox.place ++ [n]) = some e := by
  obtain ⟨l, hl, -, rfl⟩ := names_ok h
  obtain rfl := hf.locate hl
  simp only [mem_namesIn, ht.mem_entries (l := inbox.place ++ [n]) (by simp)]

/-! ### Reading -/

/-- What is known of a proposal that was read from a name. -/
structure Read (t : Tree) (inbox : Path) (n : Name) (f : ProposalFile) : Prop where
  proposal : isProposalName n
  path : f.path = inbox.child n
  name : f.name = Text.decodeString n
  found : ∃ bytes, t.find f.path = .ok (.file bytes f.modified) ∧ f.text = Text.decode bytes

theorem find_of_isFile {p : Path} (h : t.isFile p) : ∃ bytes time, t.find p = .ok (.file bytes time) := by
  rw [Tree.isFile] at h
  split at h
  · next bytes time hf => exact ⟨bytes, time, hf⟩
  · cases h

theorem proposalNames_exec (w : World) (inbox : Path) (ns : List Name) :
    (proposalNames inbox ns : StateM World (List Name)).run w
      = (ns.filter fun n => isProposalName n && w.tree.isFile (inbox.child n), w) := by
  induction ns with
  | nil => rfl
  | cons n ns ih =>
    rw [proposalNames, List.filter_cons]
    by_cases hn : isProposalName n
    · rw [if_pos hn]
      change (if w.tree.isFile (inbox.child n) then (do
          let rest ← proposalNames inbox ns
          pure (n :: rest)) else proposalNames inbox ns : StateM World (List Name)).run w = _
      by_cases hf : w.tree.isFile (inbox.child n)
      · rw [if_pos hf, StateT.run_bind, ih, if_pos (by rw [hn, hf]; rfl)]
        rfl
      · rw [if_neg hf, ih, if_neg (by simp [hf])]
    · rw [if_neg hn, ih, if_neg (by simp [hn])]

theorem readProposal_exec (hn : isProposalName n) (hf : w.tree.isFile (inbox.child n)) :
    ∃ f, w.exec (readProposal inbox n) = (.ok f, w) ∧ Read w.tree inbox n f := by
  obtain ⟨bytes, time, hfind⟩ := find_of_isFile hf
  have hbytes : w.exec (Filesystem.attempt .reading (inbox.child n)
      (Filesystem.content (inbox.child n))) = (.ok bytes, w) := by
    rw [show (Filesystem.content (inbox.child n) : StateM World _) = World.look _ from rfl,
      World.exec_attempt_look, Tree.content, hfind]
    rfl
  have htime : w.exec (Filesystem.attempt .readingTime (inbox.child n)
      (Filesystem.modified (inbox.child n))) = (.ok time, w) := by
    rw [show (Filesystem.modified (inbox.child n) : StateM World _) = World.look _ from rfl,
      World.exec_attempt_look, Tree.modified, hfind]
    rfl
  refine ⟨⟨inbox.child n, Text.decodeString n, time, Text.decode bytes⟩, ?_, hn, rfl, rfl, bytes, hfind,
    rfl⟩
  rw [readProposal, World.exec_bind, hbytes]
  simp only [World.exec_bind, htime, World.exec_pure]

/-- Reading proposals whose files are there succeeds, and leaves the world as it was. -/
theorem readProposals_exec {ns : List Name}
    (hns : ∀ n ∈ ns, isProposalName n ∧ w.tree.isFile (inbox.child n)) :
    ∃ fs, w.exec (readProposals inbox ns) = (.ok fs, w) ∧ List.Forall₂ (Read w.tree inbox) ns fs := by
  induction ns with
  | nil => exact ⟨[], rfl, .nil⟩
  | cons n ns ih =>
    obtain ⟨hn, hrest⟩ := List.forall_mem_cons.mp hns
    obtain ⟨f, hf, hread⟩ := readProposal_exec hn.1 hn.2
    obtain ⟨fs, hfs, hreads⟩ := ih hrest
    refine ⟨f :: fs, ?_, .cons hread hreads⟩
    rw [readProposals, World.exec_bind, hf]
    simp only [World.exec_bind, hfs]
    rfl

/-- Without links a proposal's file stands at the place of its path. -/
theorem Read.stands {f : ProposalFile} (h : Read t inbox n f) (hl : t.LinkFree) :
    ∃ bytes, t.entry? f.path.place = some (.file bytes f.modified) ∧ f.text = Text.decode bytes := by
  obtain ⟨bytes, hfind, htext⟩ := h.found
  obtain ⟨l, hlocate, he⟩ := Tree.find_ok hfind
  rw [hl.locate hlocate] at he
  exact ⟨bytes, he, htext⟩

/-- What a scan that succeeds gives. -/
structure Scanned (t : Tree) (inbox : Path) (ns : List Name) (fs : List ProposalFile) : Prop where
  read : List.Forall₂ (Read t inbox) ns fs
  sorted : ns.Pairwise (nameLe · ·)
  nodup : ns.Nodup
  valid : ∀ n ∈ ns, Name.Valid n

/-- Whether proposals are those of some names in a directory, each name once and in order. -/
def InOrder (inbox : Path) (fs : List ProposalFile) : Prop :=
  ∃ ns : List Name, ns.Pairwise (nameLe · ·) ∧ ns.Nodup ∧
    fs.map ProposalFile.path = ns.map inbox.child

theorem Scanned.paths {ns : List Name} {fs : List ProposalFile} (h : Scanned t inbox ns fs) :
    fs.map ProposalFile.path = ns.map inbox.child := by
  have hread := h.read
  clear h
  induction hread with
  | nil => rfl
  | cons hn _ ih => rw [List.map_cons, List.map_cons, hn.path, ih]

theorem Scanned.inOrder {ns : List Name} {fs : List ProposalFile} (h : Scanned t inbox ns fs) :
    InOrder inbox fs :=
  ⟨ns, h.sorted, h.nodup, h.paths⟩

/-- Every proposal was read from a valid name. -/
theorem Scanned.of_mem {ns : List Name} {fs : List ProposalFile} (h : Scanned t inbox ns fs)
    {f : ProposalFile} (hf : f ∈ fs) : ∃ n, Read t inbox n f ∧ Name.Valid n := by
  obtain ⟨i, hi, rfl⟩ := List.mem_iff_getElem.mp hf
  have hlen := h.read.length_eq
  exact ⟨ns[i], h.read.get (hlen ▸ hi) hi, h.valid _ (List.getElem_mem _)⟩

/-- Without links every proposal's file stands at the place of its path. -/
theorem Scanned.stands {ns : List Name} {fs : List ProposalFile} (h : Scanned t inbox ns fs)
    (hl : t.LinkFree) : ∀ f ∈ fs, ∃ bytes, t.entry? f.path.place = some (.file bytes f.modified) := by
  intro f hf
  obtain ⟨n, hread, -⟩ := h.of_mem hf
  obtain ⟨bytes, he, -⟩ := hread.stands hl
  exact ⟨bytes, he⟩

/-- The names that a scan reads, of all names in the inbox. -/
def readNames (t : Tree) (inbox : Path) (listed : List Name) : List Name :=
  sortNames (listed.filter fun n => isProposalName n && t.isFile (inbox.child n))

theorem mem_readNames {listed : List Name} :
    n ∈ readNames t inbox listed ↔ n ∈ listed ∧ isProposalName n ∧ t.isFile (inbox.child n) := by
  rw [readNames, (sortNames_perm _).mem_iff, List.mem_filter, Bool.and_eq_true]

theorem readNames_nodup {listed : List Name} (ht : t.WellFormed) (hlisted : t.names inbox = .ok listed) :
    (readNames t inbox listed).Nodup := by
  obtain ⟨l, -, -, rfl⟩ := names_ok hlisted
  exact (sortNames_perm _).nodup_iff.mpr ((namesIn_nodup ht).filter _)

/-- The proposals among names that were listed. -/
def readListed (inbox : Path) (listed : List Name) :
    ExceptT StoreError (StateM World) (List ProposalFile) := do
  let names ← (proposalNames inbox listed : StateM World (List Name))
  readProposals inbox (sortNames names)

theorem readListed_exec (w : World) (inbox : Path) (listed : List Name) :
    ∃ fs, w.exec (readListed inbox listed) = (.ok fs, w) ∧
      List.Forall₂ (Read w.tree inbox) (readNames w.tree inbox listed) fs := by
  rw [readListed, World.exec_bind, World.exec_lift, proposalNames_exec]
  exact readProposals_exec fun n hn => (mem_readNames.mp hn).2

theorem exec_scan (w : World) (inbox : Path) :
    w.exec (scan inbox) = match w.tree.names inbox with
      | .error cause => (.error ⟨.readingInbox, inbox, cause⟩, w)
      | .ok listed => w.exec (readListed inbox listed) := by
  rw [scan, World.exec_bind, show (Filesystem.names inbox : StateM World _) = World.look _ from rfl,
    World.exec_attempt_look]
  cases w.tree.names inbox <;> rfl

/-- A scan that succeeds has listed the inbox and read the files of its proposals' names in order, and
leaves the world as it was. -/
theorem scan_parts {fs : List ProposalFile} (h : w.exec (scan inbox) = (.ok fs, w')) :
    w' = w ∧ ∃ listed, w.tree.names inbox = .ok listed ∧
      List.Forall₂ (Read w.tree inbox) (readNames w.tree inbox listed) fs := by
  rw [exec_scan] at h
  cases hlisted : w.tree.names inbox with
  | error e =>
    rw [hlisted] at h
    cases h
  | ok listed =>
    rw [hlisted] at h
    obtain ⟨fs', hfs, hreads⟩ := readListed_exec w inbox listed
    cases hfs.symm.trans h
    exact ⟨rfl, listed, rfl, hreads⟩

theorem scanned_of_parts {listed : List Name} {fs : List ProposalFile} (ht : t.WellFormed)
    (hlisted : t.names inbox = .ok listed)
    (hreads : List.Forall₂ (Read t inbox) (readNames t inbox listed) fs) :
    Scanned t inbox (readNames t inbox listed) fs := by
  refine ⟨hreads, sortNames_pairwise _, readNames_nodup ht hlisted, fun n hn => ?_⟩
  obtain ⟨l, -, -, rfl⟩ := names_ok hlisted
  obtain ⟨e, he⟩ := mem_namesIn.mp (mem_readNames.mp hn).1
  exact ht.valid ((ht.mem_entries (by simp)).mp he)

/-- A scan that succeeds gives the proposals of the inbox in the order of their names, and leaves the
world as it was. -/
theorem scan_ok {fs : List ProposalFile} (hw : w.tree.WellFormed)
    (h : w.exec (scan inbox) = (.ok fs, w')) : w' = w ∧ ∃ ns, Scanned w.tree inbox ns fs := by
  obtain ⟨rfl, listed, hlisted, hreads⟩ := scan_parts h
  exact ⟨rfl, _, scanned_of_parts hw hlisted hreads⟩

end ProposalReview.Inbox
