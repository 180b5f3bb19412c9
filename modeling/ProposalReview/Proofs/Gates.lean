import Mathlib
import ProposalReview.Gates
/-!
What a local decision says about the gates.

No two gates share a code, so the reasons of a decision name the gates that fail and no others, and a
proposal is promoted when no gate fails.
-/

namespace ProposalReview

variable {s : GateSettings} {c : Candidate} {g : Gate}

@[simp] theorem Gate.mem_all (g : Gate) : g ∈ Gate.all := by cases g <;> decide

theorem Gate.forall_iff {p : Gate → Prop} : (∀ g, p g) ↔ p .sla ∧ p .name ∧ p .approvalId ∧
    p .approvalIntegrity ∧ p .evidence ∧ p .eval ∧ p .learn ∧ p .successRate ∧ p .drift ∧
    p .reproducibility ∧ p .economics := by
  refine ⟨fun h => ⟨h _, h _, h _, h _, h _, h _, h _, h _, h _, h _, h _⟩, ?_⟩
  rintro ⟨hsla, hname, hid, hintegrity, hevidence, heval, hlearn, hsuccess, hdrift, hrepro, hecon⟩ g
  cases g <;> assumption

/-- The code of the age gate holds a number; what it begins with sets it apart from all others. -/
theorem Gate.head_code (t : Thresholds) : (g.code t).toList.head? = some 's' ↔ g = .sla := by
  cases g <;> simp [Gate.code, slaCode]

/-- No two gates share a code. -/
theorem Gate.code_injective (t : Thresholds) : Function.Injective (Gate.code t) := by
  intro g g' h
  have hsla : g = .sla ↔ g' = .sla := by rw [← Gate.head_code t, h, Gate.head_code]
  by_cases hg : g = .sla
  · rw [hg, hsla.mp hg]
  · cases g <;> cases g' <;> first | rfl | simp [Gate.code] at h hg hsla

theorem Candidate.negative_iff {t : Thresholds} :
    c.negative t ↔ c.revenue t < 0.0 ∨ c.tokenCost t < 0.0 := by
  simp [Candidate.negative]

/-- A code is among the reasons just when its gate fails. -/
theorem Candidate.mem_reasons : g.code s.toThresholds ∈ c.reasons s ↔ g.fails s c := by
  rw [Candidate.reasons, List.mem_map_of_injective (Gate.code_injective _), List.mem_filter]
  simp

theorem Candidate.reasons_eq_nil : c.reasons s = [] ↔ ∀ g, Gate.fails s c g = false := by
  simp [Candidate.reasons]

/-- A proposal is promoted just when no gate fails. -/
theorem Candidate.decide_promotes {path : Path} :
    (c.decide s path).action = .promote ↔ ∀ g, Gate.fails s c g = false := by
  rw [← Candidate.reasons_eq_nil, ← List.isEmpty_iff, Candidate.decide]
  split_ifs with h <;> simp [h]

/-- A proposal is demoted just when some gate fails; it is never left where it is. -/
theorem Candidate.decide_demotes {path : Path} :
    (c.decide s path).action = .demote ↔ ∃ g, Gate.fails s c g := by
  have hreasons : (∃ g, Gate.fails s c g) ↔ c.reasons s ≠ [] := by
    rw [Ne, Candidate.reasons_eq_nil]
    simp
  rw [hreasons, Ne, ← List.isEmpty_iff, Candidate.decide]
  split_ifs with h <;> simp [h]

end ProposalReview
