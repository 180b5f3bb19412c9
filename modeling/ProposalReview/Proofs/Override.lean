import Mathlib
import ProposalReview.Proofs.Movement
import ProposalReview.Proofs.Outcome
/-!
What the actions and the warnings in a summary say.

The local gates demote exactly the proposals with a reason against them and never warn of an override.
A policy gate may give either action. So in a real run the override is warned of once if the action
is not the one that the reasons call for, and not at all otherwise.

    reasons   local action   gate says   final action   override warned of
    none      promote        promote     promote        no
    none      promote        demote      demote         once
    some      demote         promote     promote        once
    some      demote         demote      demote         no
-/

namespace ProposalReview

namespace Decision

variable {d : Decision}

/-- Whether the action is not the one that the reasons call for: a promotion against a reason, or a
demotion without one. -/
def Overruled (d : Decision) : Prop :=
  d.action = .promote ∧ d.reasons ≠ [] ∨ d.action = .demote ∧ d.reasons = []

instance (d : Decision) : Decidable d.Overruled := inferInstanceAs (Decidable (_ ∨ _))

/-- A decision as the local gates make it: its action is the one that the reasons call for, and there
is no warning of an override. -/
structure Unreviewed (d : Decision) : Prop where
  action : d.action = if d.reasons = [] then .promote else .demote
  unwarned : overrideWarning ∉ d.warnings

/-- What is known of every decision of a real run. -/
structure Accounted (d : Decision) : Prop where
  moves : d.action = .promote ∨ d.action = .demote
  warned : d.warnings.count overrideWarning = if d.Overruled then 1 else 0

theorem Unreviewed.moves (h : d.Unreviewed) : d.action ≠ .hold := by
  rw [h.action]
  split <;> simp

theorem Unreviewed.not_overruled (h : d.Unreviewed) : ¬ d.Overruled := by
  rintro (⟨ha, hr⟩ | ⟨ha, hr⟩)
  · simp [h.action, hr] at ha
  · simp [h.action, hr] at ha

/-- A decision accounts for the action that it takes over. -/
theorem Unreviewed.override (h : d.Unreviewed) {a : Action} (ha : a ≠ .hold) :
    (d.override a).Accounted := by
  have hzero : d.warnings.count overrideWarning = 0 := List.count_eq_zero.mpr h.unwarned
  by_cases hsame : a = d.action
  · rw [Decision.override, if_pos hsame]
    refine ⟨?_, by rw [hzero, if_neg h.not_overruled]⟩
    rw [h.action]
    split <;> simp
  · rw [Decision.override, if_neg hsame]
    have hover : Overruled { d with action := a, warnings := d.warnings ++ [overrideWarning] } := by
      rw [h.action] at hsame
      by_cases hr : d.reasons = []
      · rw [if_pos hr] at hsame
        cases a with
        | promote => exact absurd rfl hsame
        | demote => exact Or.inr ⟨rfl, hr⟩
        | hold => exact absurd rfl ha
      · rw [if_neg hr] at hsame
        cases a with
        | promote => exact Or.inl ⟨rfl, hr⟩
        | demote => exact absurd rfl hsame
        | hold => exact absurd rfl ha
    refine ⟨?_, ?_⟩
    · rcases hover with ⟨h, -⟩ | ⟨h, -⟩
      · exact Or.inl h
      · exact Or.inr h
    · rw [if_pos hover, List.count_append, hzero, List.count_singleton_self]

end Decision

/-- The local gates make decisions that no gate has reviewed. -/
theorem Run.unreviewed_decideOn (gates : GateSettings) (now : RunClock) (f : ProposalFile) :
    (decideOn gates now f).Unreviewed := by
  refine ⟨?_, ?_⟩
  · simp only [decideOn, Candidate.decide, List.isEmpty_iff]
  · simp only [decideOn, Candidate.decide, Candidate.warnings]
    split
    · decide
    · simp

/-- One answer after the other, every decision accounts for its action. -/
theorem PolicyGate.Settles.accounted {g : PolicyGate} {workspace : String}
    {before : List GateRequest} {ds final : List Decision}
    (h : g.Settles workspace before ds final) (hds : ∀ d ∈ ds, d.Unreviewed) :
    ∀ d ∈ final, d.Accounted := by
  induction h with
  | nil => simp
  | cons answered _ ih =>
    obtain ⟨hd, hds⟩ := List.forall_mem_cons.mp hds
    intro d' hd'
    rcases List.mem_cons.mp hd' with rfl | hd'
    · exact hd.override (answer_ne_hold hd.moves answered)
    · exact ih hds d' hd'

namespace Run

variable {s : Settings} {gate : Option PolicyGate} {now : RunClock} {w w' : World} {o : Outcome}

theorem unreviewed_of_mem {files : List ProposalFile} {gates : GateSettings} :
    ∀ d ∈ files.map (decideOn gates now), d.Unreviewed := by
  intro d hd
  obtain ⟨f, -, rfl⟩ := List.mem_map.mp hd
  exact unreviewed_decideOn gates now f

end Run

end ProposalReview
