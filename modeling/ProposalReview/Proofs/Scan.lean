import Mathlib
import ProposalReview.Proofs.Survey
/-!
What a scan finds, in whatever order the names of the inbox are listed.

A name in the inbox is that of a proposal if it ends in `.md` with something before it, and its path leads
to a file. There is but one list of such names that goes up in the order of their bytes, and each of them
is read in but one way. So a scan gives the same proposals however the system lists the names.
-/

namespace ProposalReview

/-- The files of a world in which the names in a directory are listed in an order of its own. -/
abbrev World.listing (order : List Name → List Name) : Filesystem (StateM World) :=
  { (inferInstance : Filesystem (StateM World)) with
    names := fun p => World.look fun t => (t.names p).map order }

namespace Inbox

variable {t : Tree} {w : World} {inbox : Path} {n : Name} {ns : List Name} {files : List ProposalFile}
  {order : List Name → List Name}

/-- The proposals in the inbox, when the names in it are listed in an order of its own. -/
def scanListed (order : List Name → List Name) (inbox : Path) :
    ExceptT StoreError (StateM World) (List ProposalFile) :=
  @scan (StateM World) _ (World.listing order) inbox

/-- A name that stands in the inbox is that of a proposal. -/
structure IsProposal (t : Tree) (inbox : Path) (n : Name) : Prop where
  entry : ∃ l e, t.locate inbox = .ok l ∧ t.entry? (l ++ [n]) = some e
  ending : ∃ stem, stem ≠ [] ∧ n = stem ++ Text.encodeString ".md"
  file : ∃ bytes time, t.find (inbox.child n) = .ok (.file bytes time)

/-- Proposals are those of the inbox, each of them once, in the order of the bytes of their names. -/
structure Lists (t : Tree) (inbox : Path) (ns : List Name) (files : List ProposalFile) : Prop where
  increasing : ns.Pairwise (· < ·)
  mem_iff : ∀ n, n ∈ ns ↔ IsProposal t inbox n
  read : List.Forall₂ (Read t inbox) ns files

/-! ### Names -/

theorem isProposalName_iff :
    isProposalName n ↔ ∃ stem, stem ≠ [] ∧ n = stem ++ Text.encodeString ".md" := by
  have hending : Text.encodeString ".md" = dot :: proposalExtension := by decide
  rw [hending]
  constructor
  · intro h
    obtain ⟨-, hstem, -, hn⟩ := Name.split?_eq_some.mp (split?_proposal h)
    exact ⟨_, hstem, hn⟩
  · rintro ⟨stem, hstem, rfl⟩
    have hsplit : Name.split? (stem ++ dot :: proposalExtension) = some (stem, proposalExtension) := by
      refine Name.split?_eq_some.mpr ⟨fun hparent => ?_, hstem, by decide, rfl⟩
      have hlast := congrArg List.getLast? hparent
      rw [List.getLast?_append] at hlast
      cases hlast
    rw [isProposalName, Name.extension?, hsplit]
    rfl

theorem lt_of_nameLe {a b : Name} (h : nameLe a b) (hne : a ≠ b) : a < b := by
  induction a generalizing b with
  | nil =>
    cases b with
    | nil => exact absurd rfl hne
    | cons y bs => exact List.nil_lt_cons y bs
  | cons x as ih =>
    cases b with
    | nil => cases h
    | cons y bs =>
      rw [List.cons_lt_cons_iff]
      rcases nameLe_cons.mp h with hlt | ⟨rfl, hle⟩
      · exact .inl hlt
      · exact .inr ⟨rfl, ih hle fun heq => hne (by rw [heq])⟩

/-- The names that are read are the proposals' names in the inbox, in whatever order they were listed. -/
theorem mem_readNames_iff {listed listed' : List Name} (ht : t.WellFormed)
    (hlisted : t.names inbox = .ok listed) (hperm : listed'.Perm listed) :
    n ∈ readNames t inbox listed' ↔ IsProposal t inbox n := by
  obtain ⟨l, hl, -, rfl⟩ := names_ok hlisted
  have hentry : (∃ e, (l ++ [n], e) ∈ t.entries) ↔ ∃ e, t.entry? (l ++ [n]) = some e :=
    exists_congr fun e => ht.mem_entries (by simp)
  rw [mem_readNames, hperm.mem_iff, mem_namesIn, hentry, isProposalName_iff]
  constructor
  · rintro ⟨⟨e, he⟩, hending, hfile⟩
    exact ⟨⟨l, e, hl, he⟩, hending, find_of_isFile hfile⟩
  · rintro ⟨⟨l', e, hl', he⟩, hending, bytes, time, hfile⟩
    cases hl.symm.trans hl'
    exact ⟨⟨e, he⟩, hending, by rw [Tree.isFile, hfile]⟩

theorem readNames_increasing {listed listed' : List Name} (ht : t.WellFormed)
    (hlisted : t.names inbox = .ok listed) (hperm : listed'.Perm listed) :
    (readNames t inbox listed').Pairwise (· < ·) := by
  obtain ⟨l, -, -, rfl⟩ := names_ok hlisted
  have hnodup : (readNames t inbox listed').Nodup :=
    (sortNames_perm _).nodup_iff.mpr ((hperm.nodup_iff.mpr (namesIn_nodup ht)).filter _)
  exact ((sortNames_pairwise _).and hnodup).imp fun hle => lt_of_nameLe hle.1 hle.2

/-- The names in the inbox can be listed just when its path leads to a directory. -/
theorem isDirectory_iff : t.isDirectory inbox ↔ ∃ listed, t.names inbox = .ok listed := by
  constructor
  · intro h
    rw [Tree.isDirectory] at h
    split at h
    · next hfind =>
      obtain ⟨l, hl, he⟩ := Tree.find_ok hfind
      exact ⟨t.namesIn l, by simp [Tree.names, hl, he, bind, Except.bind, pure, Except.pure]⟩
    · cases h
  · rintro ⟨listed, hlisted⟩
    obtain ⟨l, hl, he, -⟩ := names_ok hlisted
    rw [Tree.isDirectory, Tree.find_of_locate hl he]

/-! ### Reading -/

/-- A name is read in one way. -/
theorem Read.unique {f g : ProposalFile} (hf : Read t inbox n f) (hg : Read t inbox n g) : f = g := by
  obtain ⟨bytes, hfind, htext⟩ := hf.found
  obtain ⟨bytes', hfind', htext'⟩ := hg.found
  rw [hf.path] at hfind
  rw [hg.path, hfind] at hfind'
  obtain ⟨rfl, htime⟩ := Entry.file.inj (Except.ok.inj hfind')
  have hpath := hf.path.trans hg.path.symm
  have hname := hf.name.trans hg.name.symm
  cases f
  cases g
  simp_all

theorem Lists.unique {ns' : List Name} {files' : List ProposalFile} (h : Lists t inbox ns files)
    (h' : Lists t inbox ns' files') : files = files' := by
  obtain rfl : ns = ns' :=
    h.increasing.eq_of_mem_iff h'.increasing fun n => (h.mem_iff n).trans (h'.mem_iff n).symm
  have hunique : Relator.RightUnique (Read t inbox) := fun _ _ _ => Read.unique
  exact List.right_unique_forall₂' hunique h.read h'.read

/-! ### Whatever the order -/

theorem proposalNames_listing (order : List Name → List Name) (inbox : Path) (ns : List Name) :
    @proposalNames (StateM World) _ (World.listing order) inbox ns = proposalNames inbox ns := by
  induction ns with
  | nil => rfl
  | cons n ns ih =>
    unfold proposalNames
    rw [ih]
    rfl

theorem readProposals_listing (order : List Name → List Name) (inbox : Path) (ns : List Name) :
    @readProposals (StateM World) _ (World.listing order) inbox ns = readProposals inbox ns := by
  induction ns with
  | nil => rfl
  | cons n ns ih =>
    unfold readProposals
    rw [ih]
    rfl

/-- Only the listing of names depends on their order. -/
theorem exec_scanListed (order : List Name → List Name) (w : World) (inbox : Path) :
    w.exec (scanListed order inbox) = match w.tree.names inbox with
      | .error cause => (.error ⟨.readingInbox, inbox, cause⟩, w)
      | .ok listed => w.exec (readListed inbox (order listed)) := by
  have hlook : @Filesystem.names (StateM World) (World.listing order) inbox
      = World.look fun t => (t.names inbox).map order := rfl
  unfold scanListed scan
  rw [World.exec_bind, hlook, World.exec_attempt_look]
  simp only [proposalNames_listing, readProposals_listing]
  cases w.tree.names inbox <;> rfl

/-- The names that can be listed are read as the proposals of the inbox. -/
theorem readListed_lists {listed listed' : List Name} (hw : w.tree.WellFormed)
    (hlisted : w.tree.names inbox = .ok listed) (hperm : listed'.Perm listed) :
    ∃ files, w.exec (readListed inbox listed') = (.ok files, w) ∧
      Lists w.tree inbox (readNames w.tree inbox listed') files := by
  obtain ⟨files, hfiles, hread⟩ := readListed_exec w inbox listed'
  exact ⟨files, hfiles, readNames_increasing hw hlisted hperm,
    fun n => mem_readNames_iff hw hlisted hperm, hread⟩

/-- In whatever order the names of the inbox are listed, a scan succeeds if the inbox is a directory, and
then gives its proposals and nothing else: each of them once, in the order of the bytes of their names, and
each with its own path, name and text. That is what it also gives for the names as they stand. -/
theorem scan_lists_proposals (horder : ∀ ns, (order ns).Perm ns) (hw : w.tree.WellFormed) :
    (∀ files, (w.exec (scanListed order inbox)).1 = .ok files ↔
      w.tree.isDirectory inbox ∧ ∃ ns, Lists w.tree inbox ns files) ∧
    w.exec (scanListed order inbox) = w.exec (scan inbox) := by
  rw [isDirectory_iff, exec_scanListed, exec_scan]
  cases hlisted : w.tree.names inbox with
  | error cause => simp
  | ok listed =>
    obtain ⟨files, hfiles, hlists⟩ := readListed_lists hw hlisted (horder listed)
    obtain ⟨files', hfiles', hlists'⟩ := readListed_lists hw hlisted (.refl listed)
    obtain rfl := hlists.unique hlists'
    simp only [hfiles, hfiles', and_true, Except.ok.injEq, exists_eq', true_and]
    intro files'
    constructor
    · rintro rfl
      exact ⟨_, hlists⟩
    · rintro ⟨ns, hlists'⟩
      exact hlists.unique hlists'

/-- An inbox with two proposals, of which one is no text, and a link to one of them. A hidden file, a
directory, a link to nothing and a name with another ending stand beside them, and a file below. -/
def assorted : Tree :=
  ⟨[([[0x69], [0x63, 0x2e, 0x6d, 0x64], [0x66, 0x2e, 0x6d, 0x64]], .file [3] ⟨0, 0⟩),
    ([[0x69], [0xff, 0x2e, 0x6d, 0x64]], .file [0xff] ⟨0, 0⟩),
    ([[0x69], [0x63, 0x2e, 0x6d, 0x64]], .directory),
    ([[0x69], [0x62, 0x2e, 0x6d, 0x64]], .link ⟨Specimen.name⟩),
    ([[0x69], [0x65, 0x2e, 0x6d, 0x64]], .link ⟨[0x67]⟩),
    ([[0x69], [0x2e, 0x6d, 0x64]], .file [4] ⟨0, 0⟩),
    ([[0x69], [0x61, 0x2e, 0x74]], .file [5] ⟨0, 0⟩),
    ([[0x69], Specimen.name], .file [1] ⟨0, 0⟩),
    ([[0x69]], .directory)]⟩

/-- Listed backwards, the names of this inbox give the proposals in order all the same. -/
theorem scan_lists_proposals_backwards :
    let w : World := { tree := assorted }
    (∀ ns : List Name, ns.reverse.Perm ns) ∧ assorted.WellFormed ∧
    ∃ files ns, (w.exec (scanListed List.reverse Specimen.dirs.inbox)).1 = .ok files ∧
      files.map ProposalFile.name = ["a.md", "b.md", "\ufffd.md"] ∧
      Lists w.tree Specimen.dirs.inbox ns files ∧
      w.exec (scanListed List.reverse Specimen.dirs.inbox) = w.exec (scan Specimen.dirs.inbox) := by
  intro w
  have hw : assorted.WellFormed := .of_entries (by decide) (by decide)
  have hreverse : ∀ ns : List Name, ns.reverse.Perm ns := List.reverse_perm
  obtain ⟨hlists, hsame⟩ := @scan_lists_proposals w Specimen.dirs.inbox List.reverse hreverse hw
  have hseen : (w.exec (scanListed List.reverse Specimen.dirs.inbox)).1.toOption.map
      (List.map ProposalFile.name) = some ["a.md", "b.md", "\ufffd.md"] := by decide +kernel
  obtain ⟨files, w', hfiles, hnames⟩ := World.exists_of_seen hseen
  have hfiles := congrArg Prod.fst hfiles
  obtain ⟨-, ns, hns⟩ := (hlists files).mp hfiles
  exact ⟨hreverse, hw, files, ns, hfiles, hnames, hns, hsame⟩

end Inbox

end ProposalReview
