import Mathlib
import ProposalReview.Proofs.Reach
/-!
Where the proposals are after a real run.

However a run ends, there is a number of proposals, in the order of their names, that have left the
inbox and stand unchanged where their final actions send them; the others stand unchanged in the
inbox. A run that succeeds moves all of them, and one that the gate blocks moves none.
-/

namespace ProposalReview

variable {s : Settings} {gate : Option PolicyGate} {now : RunClock} {w w₁ w' : World}
  {files : List ProposalFile}

/-- Whether a proposal's file is in the inbox of a tree as it was in that of another one. -/
def Stays (t t' : Tree) (p : ProposalFile) : Prop :=
  ∃ bytes, t.entry? p.path.place = some (.file bytes p.modified) ∧
    t'.entry? p.path.place = some (.file bytes p.modified)

/-- Whether a proposal's file has left the inbox and is where a decision sends it, as it was. -/
def Leaves (dirs : Directories) (t t' : Tree) (p : ProposalFile) (d : Decision) : Prop :=
  ∃ n bytes, p.path.baseName? = some n ∧
    t.entry? p.path.place = some (.file bytes p.modified) ∧ ¬ t'.FileAt p.path.place ∧
    (d.action = .promote ∧ t'.entry? (dirs.applied.place ++ [n]) = some (.file bytes p.modified) ∨
      d.action = .demote ∧ t'.entry? (dirs.demoted.place ++ [n]) = some (.file bytes p.modified))

theorem Stays.entry_eq {t t' : Tree} {p : ProposalFile} {e : Entry} (h : Stays t t' p)
    (he : t.entry? p.path.place = some e) : t'.entry? p.path.place = some e := by
  obtain ⟨bytes, h, h'⟩ := h
  rw [h', ← h, he]

theorem Leaves.entry_eq {dirs : Directories} {t t' : Tree} {p : ProposalFile} {d : Decision} {n : Name}
    {e : Entry} (h : Leaves dirs t t' p d) (hn : p.path.baseName? = some n)
    (he : t.entry? p.path.place = some e) :
    t'.entry? ((dirs.target d.action).place ++ [n]) = some e := by
  obtain ⟨m, bytes, hm, h, -, h' | h'⟩ := h
  · rw [hn, Option.some_inj] at hm
    rw [Directories.target, if_pos h'.1, hm, h'.2, ← h, he]
  · rw [hn, Option.some_inj] at hm
    rw [Directories.target, if_neg (by simp [h'.1]), hm, h'.2, ← h, he]

theorem Reached.leaves {ds : List Decision} {k : Nat} {t t' : Tree} (h : Reached s now files ds k t t')
    {x : ProposalFile × Decision} (hx : x ∈ (files.zip ds).take k) :
    Leaves s.dirs t t' x.1 x.2 := by
  have hmem := List.mem_of_mem_take hx
  obtain ⟨n, hn⟩ := h.assignment.assigned hmem
  obtain ⟨bytes, he⟩ := h.stands x.1 (List.of_mem_zip hmem).1
  obtain ⟨hgone, harrived⟩ := h.moves hx hn he
  refine ⟨n, bytes, by rw [hn.path, Path.baseName?_child hn.valid], he, hgone, ?_⟩
  rw [Directories.target] at harrived
  cases ha : x.2.action with
  | promote =>
    rw [ha, if_pos rfl] at harrived
    exact Or.inl ⟨rfl, harrived⟩
  | demote =>
    rw [ha, if_neg (by decide)] at harrived
    exact Or.inr ⟨rfl, harrived⟩
  | hold => exact absurd ha hn.about.moves

namespace Run

/-- A real run moves an initial part of the proposals, in the order of their names: all of them if it
succeeds, and none if the gate blocks it. -/
theorem run_moves_initial_part (hreal : s.mode = .real) (hdirs : s.dirs.Distinct)
    (hw : w.tree.WellFormed) (hl : w.tree.LinkFree)
    (hsurvey : w.exec (survey s now) = (.ok files, w₁)) {r : Except RunError Outcome}
    (hrun : w.exec (run s (gate.map PolicyGate.review) now) = (r, w')) :
    Inbox.InOrder s.dirs.inbox files ∧ ∃ k ≤ files.length,
      (∀ p ∈ files.drop k, Stays w₁.tree w'.tree p) ∧
      (k = 0 ∨ ∃ ds w₂, w₁.exec (reviewed s (gate.map PolicyGate.review)
          (files.map (decideOn s.gates now))) = (.ok ds, w₂) ∧ ds.length = files.length ∧
        ∀ x ∈ (files.zip ds).take k, Leaves s.dirs w₁.tree w'.tree x.1 x.2) ∧
      (∀ o, r = .ok o → k = files.length) ∧
      (∀ file action e, r = .error (.gate file action e) → k = 0) := by
  obtain ⟨k, ds, hreached, hle, hreview, hok, hgate⟩ := run_reached hreal hdirs hw hl hsurvey hrun
  obtain ⟨-, -, ns, hscan⟩ := survey_ok hw hsurvey
  refine ⟨hscan.inOrder, k, hle, fun p hp => ?_, ?_, hok, hgate⟩
  · obtain ⟨bytes, he⟩ := hreached.stands p (List.mem_of_mem_drop hp)
    exact ⟨bytes, he, hreached.stays hp he⟩
  · refine hreview.imp_right fun ⟨w₂, hreview⟩ => ?_
    exact ⟨ds, w₂, hreview, hreached.assignment.1.length_eq.symm, fun x hx => hreached.leaves hx⟩

/-- The gate that promotes the first proposal it is asked about and demotes all others. -/
def promotesFirst : PolicyGate
  | [], _ => .ok [("action", .string "promote")]
  | _ :: _, _ => .ok [("allow", .bool false)]

/-- Two proposals, of which the gate promotes one and demotes the other, leave the inbox in this order;
both have left it if the run succeeds. -/
theorem run_moves_initial_part_promotesFirst :
    let s := Specimen.settings
    let w : World := { tree := Specimen.twoProposals }
    let final := w.exec (run s ((some promotesFirst).map PolicyGate.review) (.utc ⟨0, 0⟩))
    let stands := fun (l : Location) (b : UInt8) => final.2.tree.entry? l = some (.file [b] ⟨0, 0⟩)
    s.mode = .real ∧ s.dirs.Distinct ∧ w.tree.WellFormed ∧ w.tree.LinkFree ∧
      (stands [[0x69], Specimen.name] 1 ∧ stands [[0x69], Specimen.otherName] 2 ∨
        stands [[0x70], Specimen.name] 1 ∧ stands [[0x69], Specimen.otherName] 2 ∨
        stands [[0x70], Specimen.name] 1 ∧ stands [[0x64], Specimen.otherName] 2) ∧
      (final.1.isOk → stands [[0x70], Specimen.name] 1 ∧ stands [[0x64], Specimen.otherName] 2) := by
  intro s w final stands
  have hreal : s.mode = .real := rfl
  have hdirs : s.dirs.Distinct := Specimen.dirs_distinct
  have hw : w.tree.WellFormed := Specimen.twoProposals_wellFormed
  have hl : w.tree.LinkFree := Specimen.twoProposals_linkFree
  refine ⟨hreal, hdirs, hw, hl, ?_⟩
  obtain ⟨-, k, hle, hstays, hleaves, hok, -⟩ := run_moves_initial_part hreal hdirs hw hl
    Specimen.survey_twoProposals (Prod.mk.eta (p := final)).symm
  have hreview : World.exec { tree := Specimen.preparedTree } (reviewed s
      ((some promotesFirst).map PolicyGate.review)
      ([Specimen.proposal, Specimen.otherProposal].map (decideOn s.gates (.utc ⟨0, 0⟩))))
      = (.ok [(decideOn s.gates (.utc ⟨0, 0⟩) Specimen.proposal).override .promote,
          (decideOn s.gates (.utc ⟨0, 0⟩) Specimen.otherProposal).override .demote], _) := rfl
  have hleave : ∀ {p : ProposalFile} {d : Decision} {n : Name} {e : Entry}, (p, d) ∈
      ([Specimen.proposal, Specimen.otherProposal].zip
        [(decideOn s.gates (.utc ⟨0, 0⟩) Specimen.proposal).override .promote,
          (decideOn s.gates (.utc ⟨0, 0⟩) Specimen.otherProposal).override .demote]).take k →
      p.path.baseName? = some n → Specimen.preparedTree.entry? p.path.place = some e →
      final.2.tree.entry? ((s.dirs.target d.action).place ++ [n]) = some e := by
    intro p d n e hx hn he
    rcases hleaves with rfl | ⟨ds, w₂, hds, -, hleaves⟩
    · cases hx
    · rw [hreview] at hds
      cases hds
      exact (hleaves _ hx).entry_eq hn he
  have hwaits : k < 1 → stands [[0x69], Specimen.name] 1 := by
    intro hk
    obtain rfl : k = 0 := Nat.lt_one_iff.mp hk
    exact (hstays Specimen.proposal List.mem_cons_self).entry_eq rfl
  have hotherWaits : k < 2 → stands [[0x69], Specimen.otherName] 2 := by
    intro hk
    refine (hstays Specimen.otherProposal ?_).entry_eq rfl
    interval_cases k
    · exact List.mem_cons_of_mem _ List.mem_cons_self
    · exact List.mem_cons_self
  have hpromoted : 0 < k → stands [[0x70], Specimen.name] 1 := by
    intro hk
    obtain ⟨j, rfl⟩ := Nat.exists_eq_succ_of_ne_zero hk.ne'
    have h := hleave (p := Specimen.proposal) List.mem_cons_self rfl rfl
    rwa [Decision.action_override] at h
  have hdemoted : 1 < k → stands [[0x64], Specimen.otherName] 2 := by
    intro hk
    obtain ⟨j, rfl⟩ := Nat.exists_eq_add_of_le hk
    have h := hleave (p := Specimen.otherProposal)
      (by rw [Nat.add_comm]; exact List.mem_cons_of_mem _ List.mem_cons_self) rfl rfl
    rwa [Decision.action_override] at h
  refine ⟨?_, fun hfinal => ?_⟩
  · rcases (by simpa using hle : k ≤ 2).lt_or_eq with hk | rfl
    · rcases Nat.lt_or_ge k 1 with hk' | hk'
      · exact Or.inl ⟨hwaits hk', hotherWaits hk⟩
      · exact Or.inr (Or.inl ⟨hpromoted hk', hotherWaits hk⟩)
    · exact Or.inr (Or.inr ⟨hpromoted (by decide), hdemoted (by decide)⟩)
  · cases hr : final.1 with
    | error e =>
      rw [hr] at hfinal
      cases hfinal
    | ok o =>
      have hk : k = 2 := hok o hr
      exact ⟨hpromoted (by omega), hdemoted (by omega)⟩

end Run

end ProposalReview
