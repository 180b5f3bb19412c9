import Mathlib
import ProposalReview.Proofs.Gates
import ProposalReview.Proofs.Proposal.Fields
import ProposalReview.Proofs.Proposal.Number
import ProposalReview.Proposal.Metadata
/-!
What a proposal must say to be promoted.

The gates look at marks and figures only; here these are traced back to the lines of the text. So
promotion is put in terms of the text itself: which lines it must have, and what must follow their
colons.
-/

namespace ProposalReview

open Proposal

variable {text : List Char} {f : Field} {y : Float}

/-! ### What a text says -/

namespace Proposal

/-- The first approval identifier of a text is none of the words for no approval, in any case. No
character beyond ASCII has a letter of these words as its lower case. -/
def Approves (text : List Char) : Prop :=
  ∃ rest, FillsFirst (Text.lines text) .approvalId rest ∧
    ∀ word ∈ ["none", "null", "na"], (Text.firstToken rest).map Char.toLower ≠ word.toList

/-- What a text fills a field with first is the ratio of a finite value. -/
def HoldsRatio (text : List Char) (f : Field) (y : Float) : Prop :=
  ∃ rest, FillsFirst (Text.lines text) f rest ∧ WritesRatio (Text.trim rest) y ∧ y.isFinite = true

end Proposal

/-- What a proposal must show to be promoted: its age and its name, and in its text an approval, who
gave it, when and why, the three marks, and figures within the thresholds. -/
structure Proposal.Merits (s : GateSettings) (name : String) (text : List Char) (age : Float) :
    Prop where
  inTime : ¬ age > s.slaHours
  named : s.nameRule.accepts name
  approved : Approves text
  signed : ∀ f ∈ [Field.approvedBy, .approvedAt, .approvalReason],
    ∃ line ∈ Text.lines text, ∃ rest, Fills line f rest
  marked : ∀ f ∈ [Field.evidence, .eval, .learn], Mentions (Text.lines text) f
  success : ∃ y, HoldsRatio text .successRate y ∧ y ≥ s.minSuccess
  drift : ∃ y, HoldsRatio text .drift y ∧ y ≤ s.maxDrift
  reproducible : ∃ y, HoldsRatio text .reproducibility y ∧ y ≥ s.minRepro
  solvent : Candidate.negative ⟨name, Metadata.ofText text, age⟩ s.toThresholds = false

/-! ### What is read of it -/

namespace Metadata

theorem isApproval_iff {id : List Char} : isApproval id ↔
    ∀ word ∈ ["none", "null", "na"], id.map Char.toLower ≠ word.toList := by
  simp only [List.forall_mem_cons]
  simp [isApproval, nullApprovals, ← String.toList_inj]

theorem hasApproval_ofText : (ofText text).hasApproval ↔ Approves text := by
  simp only [ofText, ofFields, Option.any_eq_true, Fields.value?_ofText, isApproval_iff, Approves]
  constructor
  · rintro ⟨id, ⟨rest, hfirst, rfl⟩, hword⟩
    exact ⟨rest, hfirst, hword⟩
  · rintro ⟨rest, hfirst, hword⟩
    exact ⟨_, ⟨rest, hfirst, rfl⟩, hword⟩

theorem hasApprovalIntegrity_ofText : (ofText text).hasApprovalIntegrity ↔ Approves text ∧
    ∀ f ∈ [Field.approvedBy, .approvedAt, .approvalReason],
      ∃ line ∈ Text.lines text, ∃ rest, Fills line f rest := by
  rw [← hasApproval_ofText]
  simp only [ofText, ofFields, Bool.and_eq_true, List.all_eq_true, Fields.value?_isSome_ofText]

theorem number?_ratio_ofText (hf : f.isToken = false) :
    number? (Fields.ofText text) f .ratio = some y ↔ HoldsRatio text f y := by
  simp only [number?, Option.bind_eq_some_iff, Fields.value?_ofText, number?_ratio_eq_some_iff,
    Field.valueIn, hf, HoldsRatio]
  constructor
  · rintro ⟨value, ⟨rest, hfirst, rfl⟩, hratio⟩
    exact ⟨rest, hfirst, hratio, hratio.isFinite⟩
  · rintro ⟨rest, hfirst, hratio, -⟩
    exact ⟨_, ⟨rest, hfirst, rfl⟩, hratio⟩

theorem any_number?_ofText (hf : f.isToken = false) (p : Float → Bool) :
    (number? (Fields.ofText text) f .ratio).any p ↔ ∃ y, HoldsRatio text f y ∧ p y := by
  simp only [Option.any_eq_true, number?_ratio_ofText hf]

end Metadata

/-- A proposal is promoted just when its age, its name and the lines of its text merit it. -/
theorem Candidate.decide_promotes_iff_merits (s : GateSettings) (path : Path) (name : String)
    (text : List Char) (age : Float) :
    (Candidate.decide s path ⟨name, Metadata.ofText text, age⟩).action = .promote ↔
      Merits s name text age := by
  rw [Candidate.decide_promotes, Gate.forall_iff]
  simp only [Gate.fails, Bool.not_eq_false', decide_eq_false_iff_not]
  constructor
  · rintro ⟨hage, hname, -, hintegrity, hevidence, heval, hlearn, hsuccess, hdrift, hrepro, hsolvent⟩
    obtain ⟨happroved, hsigned⟩ := Metadata.hasApprovalIntegrity_ofText.mp hintegrity
    exact
      { inTime := hage
        named := hname
        approved := happroved
        signed := hsigned
        marked := by
          simp only [List.forall_mem_cons]
          exact ⟨Fields.isPresent_ofText.mp hevidence, Fields.isPresent_ofText.mp heval,
            Fields.isPresent_ofText.mp hlearn, by simp⟩
        success := by simpa using (Metadata.any_number?_ofText rfl _).mp hsuccess
        drift := by simpa using (Metadata.any_number?_ofText rfl _).mp hdrift
        reproducible := by simpa using (Metadata.any_number?_ofText rfl _).mp hrepro
        solvent := hsolvent }
  · intro h
    have hmark : ∀ f ∈ [Field.evidence, .eval, .learn], (Fields.ofText text).isPresent f :=
      fun f hf => Fields.isPresent_ofText.mpr (h.marked f hf)
    refine ⟨h.inTime, h.named, Metadata.hasApproval_ofText.mpr h.approved,
      Metadata.hasApprovalIntegrity_ofText.mpr ⟨h.approved, h.signed⟩, hmark .evidence (by simp),
      hmark .eval (by simp), hmark .learn (by simp), ?_, ?_, ?_, h.solvent⟩
    · exact (Metadata.any_number?_ofText rfl _).mpr (by simpa using h.success)
    · exact (Metadata.any_number?_ofText rfl _).mpr (by simpa using h.drift)
    · exact (Metadata.any_number?_ofText rfl _).mpr (by simpa using h.reproducible)

/-- A proposal that says no more than it must. -/
def leastProposal : String :=
  "approval_id: A\napproved_by: b\napproved_at: c\napproval_reason: d\nevidence:\neval:\nlearn:\n" ++
  "success_rate: 95%\ndrift: 3%\nreproducibility: 100%"

example : (Candidate.decide { nameRule := ⟨"", .empty⟩ } ⟨[]⟩
    ⟨"a.md", Metadata.ofText leastProposal.toList, 1.0⟩).action = .promote := by decide +kernel

end ProposalReview
