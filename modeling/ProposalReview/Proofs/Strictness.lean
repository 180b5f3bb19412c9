import Mathlib
import ProposalReview.Proofs.Decimal.Order
import ProposalReview.Proofs.Gates
/-!
Stricter settings help no proposal.

Each gate with a threshold compares one figure with it, and so does the warning. What failed against a
threshold fails against a stricter one, since comparisons follow on one another. A figure that is no
number is no exception: it is beyond no threshold, and in order with none.

    age        looser < figure       and  stricter ≤ looser   give   stricter < figure
    margin     figure < looser       and  looser ≤ stricter   give   figure < stricter
    rates      not looser ≤ figure   and  looser ≤ stricter   give   not stricter ≤ figure
    drift      not figure ≤ looser   and  stricter ≤ looser   give   not figure ≤ stricter
-/

namespace ProposalReview

open Decimal

variable {s s' : GateSettings} {c : Candidate}

/-- Whether the second settings ask for at least as much as the first in every threshold, and have the
same rule for names and the same amounts by default. -/
structure GateSettings.Tightens (s s' : GateSettings) : Prop where
  slaHours : s'.slaHours ≤ s.slaHours
  maxDrift : s'.maxDrift ≤ s.maxDrift
  minSuccess : s.minSuccess ≤ s'.minSuccess
  minRepro : s.minRepro ≤ s'.minRepro
  minMarginRate : s.minMarginRate ≤ s'.minMarginRate
  nameRule : s'.nameRule = s.nameRule
  defaultRevenueUsdc : s'.defaultRevenueUsdc = s.defaultRevenueUsdc
  defaultTokenCostUsdc : s'.defaultTokenCostUsdc = s.defaultTokenCostUsdc

namespace GateSettings.Tightens

/-! ### The figures -/

theorem revenue_eq (h : s.Tightens s') (c : Candidate) :
    c.revenue s'.toThresholds = c.revenue s.toThresholds := by
  rw [Candidate.revenue, Candidate.revenue, h.defaultRevenueUsdc]

theorem tokenCost_eq (h : s.Tightens s') (c : Candidate) :
    c.tokenCost s'.toThresholds = c.tokenCost s.toThresholds := by
  rw [Candidate.tokenCost, Candidate.tokenCost, h.defaultTokenCostUsdc]

theorem negative_eq (h : s.Tightens s') (c : Candidate) :
    c.negative s'.toThresholds = c.negative s.toThresholds := by
  rw [Candidate.negative, Candidate.negative, h.revenue_eq, h.tokenCost_eq]

theorem marginRate?_eq (h : s.Tightens s') (c : Candidate) :
    c.marginRate? s'.toThresholds = c.marginRate? s.toThresholds := by
  rw [Candidate.marginRate?, Candidate.marginRate?, h.negative_eq, h.revenue_eq, h.tokenCost_eq]

/-- The figures that a decision records do not depend on the thresholds. -/
theorem kpi_eq (h : s.Tightens s') (c : Candidate) :
    c.kpi s'.toThresholds = c.kpi s.toThresholds := by
  rw [Candidate.kpi, Candidate.kpi, h.revenue_eq, h.tokenCost_eq, h.marginRate?_eq]

/-! ### Gates and warnings -/

/-- A figure that is at least the greater of two bounds is at least the lesser. -/
theorem any_ge {figure : Option Float} {low high : Float} (hle : low ≤ high)
    (h : figure.any (· ≥ high)) : figure.any (· ≥ low) := by
  simp only [Option.any_eq_true, decide_eq_true_eq] at h ⊢
  obtain ⟨x, hx, hhigh⟩ := h
  exact ⟨x, hx, le_of_le_of_le hle hhigh⟩

/-- A figure that is at most the lesser of two bounds is at most the greater. -/
theorem any_le {figure : Option Float} {low high : Float} (hle : low ≤ high)
    (h : figure.any (· ≤ low)) : figure.any (· ≤ high) := by
  simp only [Option.any_eq_true, decide_eq_true_eq] at h ⊢
  obtain ⟨x, hx, hlow⟩ := h
  exact ⟨x, hx, le_of_le_of_le hlow hle⟩

/-- A gate that fails fails under stricter settings. -/
theorem fails (h : s.Tightens s') {g : Gate} (hfails : g.fails s c) : g.fails s' c := by
  cases g with
  | sla =>
    have hold : c.ageHours > s.slaHours := by simpa [Gate.fails] using hfails
    simpa [Gate.fails] using lt_of_le_and_lt h.slaHours hold
  | name => simpa only [Gate.fails, h.nameRule] using hfails
  | approvalId | approvalIntegrity | evidence | eval | learn => exact hfails
  | successRate =>
    simp only [Gate.fails, Bool.not_eq_true', ← Bool.not_eq_true] at hfails ⊢
    exact mt (any_ge h.minSuccess) hfails
  | drift =>
    simp only [Gate.fails, Bool.not_eq_true', ← Bool.not_eq_true] at hfails ⊢
    exact mt (any_le h.maxDrift) hfails
  | reproducibility =>
    simp only [Gate.fails, Bool.not_eq_true', ← Bool.not_eq_true] at hfails ⊢
    exact mt (any_ge h.minRepro) hfails
  | economics => simpa only [Gate.fails, h.negative_eq] using hfails

/-- What is warned of is warned of under stricter settings. -/
theorem warnings (h : s.Tightens s') {warning : String} (hw : warning ∈ c.warnings s.toThresholds) :
    warning ∈ c.warnings s'.toThresholds := by
  rw [Candidate.warnings] at hw ⊢
  split_ifs at hw with hlow
  · simp only [Option.any_eq_true, decide_eq_true_eq] at hlow
    obtain ⟨rate, hrate, hbelow⟩ := hlow
    have hagain : (c.marginRate? s'.toThresholds).any (· < s'.minMarginRate) := by
      simp only [Option.any_eq_true, decide_eq_true_eq]
      exact ⟨rate, (h.marginRate?_eq c).trans hrate, lt_of_lt_and_le hbelow h.minMarginRate⟩
    rwa [if_pos hagain]
  · cases hw

end GateSettings.Tightens

/-- Stricter settings help no proposal. The reason of a gate stays a reason, with the threshold that its
code may hold; a warning stays a warning; the figures are the same; and what is promoted under stricter
settings is promoted. -/
theorem Candidate.decide_tightens (h : s.Tightens s') (path : Path) (c : Candidate) :
    let d := c.decide s path
    let d' := c.decide s' path
    (∀ g : Gate, g.code s.toThresholds ∈ d.reasons → g.code s'.toThresholds ∈ d'.reasons) ∧
    (∀ warning ∈ d.warnings, warning ∈ d'.warnings) ∧ d'.kpi = d.kpi ∧
    (d'.action = .promote → d.action = .promote) := by
  refine ⟨fun g hg => ?_, fun _ hw => h.warnings hw, h.kpi_eq c, fun hpromoted => ?_⟩
  · exact mem_reasons.mpr (h.fails (mem_reasons.mp hg))
  · rw [decide_promotes] at hpromoted ⊢
    intro g
    rw [← Bool.not_eq_true]
    exact fun hfails => Bool.false_ne_true ((hpromoted g).symm.trans (h.fails hfails))

/-- Settings by default, but with a rule that accepts every name. -/
def Specimen.loose : GateSettings where
  nameRule := ⟨"", .empty⟩

/-- Settings that are stricter in every threshold. -/
def Specimen.strict : GateSettings where
  nameRule := ⟨"", .empty⟩
  slaHours := 1.0
  minSuccess := 0.95
  maxDrift := 0.05
  minRepro := 0.99
  minMarginRate := 0.5

/-- An old proposal with figures at the thresholds by default and a small margin. -/
def Specimen.borderline : Candidate where
  name := "a.md"
  metadata :=
    { hasApproval := true
      hasApprovalIntegrity := true
      hasEvidence := true
      hasEval := true
      hasLearn := true
      kpi :=
        { successRate := some 0.9
          drift := some 0.1
          reproducibility := some 0.9
          revenueUsdc := some 4.0
          tokenCostUsdc := some 3.0 } }
  ageHours := 30.0

/-- The old proposal is refused for its age under both settings. Under the stricter ones three more gates
refuse it, and its margin is warned of. -/
theorem Candidate.decide_tightens_borderline :
    let d := Specimen.borderline.decide Specimen.loose ⟨[]⟩
    let d' := Specimen.borderline.decide Specimen.strict ⟨[]⟩
    Specimen.loose.Tightens Specimen.strict ∧ d.reasons = ["sla_exceeded>24.0h"] ∧
    "sla_exceeded>1.0h" ∈ d'.reasons ∧ d'.reasons.length = 4 ∧ d.warnings = [] ∧
    d'.warnings = ["kpi_margin_rate_fail"] ∧ d'.kpi = d.kpi ∧
    (d'.action = .promote → d.action = .promote) := by
  have htightens : Specimen.loose.Tightens Specimen.strict := by
    constructor <;> rfl
  have hreasons : (Specimen.borderline.decide Specimen.loose ⟨[]⟩).reasons
      = ["sla_exceeded>24.0h"] := by decide +kernel
  have hloose : Gate.code Specimen.loose.toThresholds .sla = "sla_exceeded>24.0h" := by decide +kernel
  have hstrict : Gate.code Specimen.strict.toThresholds .sla = "sla_exceeded>1.0h" := by
    decide +kernel
  obtain ⟨hcodes, -, hkpi, haction⟩ := decide_tightens htightens ⟨[]⟩ Specimen.borderline
  have hagain := hcodes .sla (by rw [hreasons, hloose]; exact List.mem_cons_self)
  rw [hstrict] at hagain
  exact ⟨htightens, hreasons, hagain, by decide +kernel, by decide +kernel, by decide +kernel, hkpi,
    haction⟩

end ProposalReview
