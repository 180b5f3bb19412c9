import Mathlib
import ProposalReview.Proofs.ExitStatus
import ProposalReview.Proofs.Gates
/-!
What a summary says about margins.

The local gates look at the revenue and the token cost once: they decide whether there is a margin
rate, whether an amount is negative, and whether the rate is warned of. A policy gate changes neither
the figures nor the reasons, and its own warning is another one. So the files that are listed for their
margins are those whose rate, as it is recorded, is below the threshold that the summary names.

    revenue       token cost    margin rate   reason against the amounts
    negative      any           none          yes
    any           negative      none          yes
    zero          not negative  none          no
    any other     not negative  the quotient  no
-/

namespace ProposalReview

variable {s : GateSettings} {c : Candidate} {d : Decision} {least : Float}

/-- Whether what a decision says about margins agrees with the amounts that it records, for the least
margin rate that is not warned of. -/
structure Decision.Costed (least : Float) (d : Decision) : Prop where
  amounts : ∃ revenue cost, d.kpi.revenueUsdc = some revenue ∧ d.kpi.tokenCostUsdc = some cost ∧
    d.kpi.marginRate = (if ¬ revenue < 0.0 ∧ ¬ cost < 0.0 ∧ ¬ revenue == 0.0
      then some ((revenue - cost) / revenue) else none) ∧
    ("econ_invalid_negative_values" ∈ d.reasons ↔ revenue < 0.0 ∨ cost < 0.0)
  warned : d.hasWarning marginWarning ↔ d.kpi.marginRate.any (· < least)

/-! ### Local decisions -/

theorem Candidate.marginRate?_eq (c : Candidate) (t : Thresholds) : c.marginRate? t
    = if ¬ c.revenue t < 0.0 ∧ ¬ c.tokenCost t < 0.0 ∧ ¬ c.revenue t == 0.0
      then some ((c.revenue t - c.tokenCost t) / c.revenue t) else none := by
  rw [Candidate.marginRate?]
  by_cases hnegative : c.negative t
  · have hnone : ¬ (¬ c.revenue t < 0.0 ∧ ¬ c.tokenCost t < 0.0 ∧ ¬ c.revenue t == 0.0) := by
      rintro ⟨hrevenue, hcost, -⟩
      exact (Candidate.negative_iff.mp hnegative).elim hrevenue hcost
    rw [if_pos hnegative, if_neg hnone]
  · have hsigns := not_or.mp (mt Candidate.negative_iff.mpr hnegative)
    rw [if_neg hnegative]
    by_cases hzero : c.revenue t == 0.0
    · rw [if_pos hzero, if_neg fun h => h.2.2 hzero]
    · rw [if_neg hzero, if_pos ⟨hsigns.1, hsigns.2, hzero⟩]

theorem Candidate.decide_costed (s : GateSettings) (path : Path) (c : Candidate) :
    (c.decide s path).Costed s.minMarginRate where
  amounts := by
    refine ⟨c.revenue s.toThresholds, c.tokenCost s.toThresholds, rfl, rfl,
      c.marginRate?_eq s.toThresholds, ?_⟩
    rw [← Candidate.negative_iff]
    exact Candidate.mem_reasons (g := .economics)
  warned := by
    simp only [Candidate.decide, Decision.hasWarning, Candidate.warnings, Candidate.kpi]
    split_ifs with h
    · simp [h]
    · simp [h]

/-! ### Reviewed decisions -/

/-- Taking over an action is no matter of margins. -/
theorem Decision.Costed.override (h : d.Costed least) (a : Action) : (d.override a).Costed least := by
  have hwarned : (d.override a).hasWarning marginWarning = d.hasWarning marginWarning := by
    have hother : marginWarning ≠ overrideWarning := by decide
    rw [Decision.hasWarning, Decision.hasWarning]
    rcases d.warns_override a with hsame | hmore
    · rw [hsame]
    · rw [hmore]
      simp [hother]
  refine ⟨?_, ?_⟩
  · rw [d.override_eq a]
    exact h.amounts
  · rw [hwarned, d.override_eq a]
    exact h.warned

/-- A tree with three proposals, `a.md`, `b.md` and `c.md`, that state amounts. -/
def Specimen.priced : Tree :=
  let text := fun s => Entry.file (Text.encodeString s) ⟨0, 0⟩
  ⟨[([[0x69]], .directory),
    ([[0x69], name], text "revenue_usdc: 1\ntoken_cost_usdc: 2"),
    ([[0x69], otherName], text "revenue_usdc: 4\ntoken_cost_usdc: 1"),
    ([[0x69], [0x63, 0x2e, 0x6d, 0x64]], text "token_cost_usdc: -1")]⟩

namespace Run

variable {s : Settings} {gate : Option PolicyGate} {now : RunClock} {w w' : World} {o : Outcome}
  {files : List ProposalFile} {final : List Decision}

/-- Whatever a gate answers, the decisions that are carried out are the local ones, up to their action. -/
theorem mem_reviewed
    (h : w.exec (reviewed s (gate.map PolicyGate.review) (files.map (decideOn s.gates now)))
      = (.ok final, w')) : ∀ d ∈ final, ∃ f ∈ files, ∃ a, d = (decideOn s.gates now f).override a := by
  obtain ⟨hoverrides, -⟩ := reviewed_overrides h
  rw [List.forall₂_map_left_iff] at hoverrides
  intro d hd
  obtain ⟨i, hi, rfl⟩ := List.mem_iff_getElem.mp hd
  have hlocal : i < files.length := hoverrides.length_eq ▸ hi
  exact ⟨files[i], List.getElem_mem hlocal, hoverrides.get hlocal hi⟩

/-- What a run reports of a proposal is the local decision about it, up to its action. -/
theorem mem_decisions_run (hrun : w.exec (run s (gate.map PolicyGate.review) now) = (.ok o, w')) :
    ∀ r ∈ o.summary.decisions, ∃ f a, r.decision = (decideOn s.gates now f).override a := by
  obtain ⟨files, w₁, final, w₂, -, hreview, hcarry⟩ := run_ok hrun
  intro r hr
  rw [decisions_of_carryOut hcarry] at hr
  obtain ⟨d, hd, rfl⟩ := List.mem_map.mp hr
  obtain ⟨f, -, a, hd⟩ := mem_reviewed hreview d hd
  exact ⟨f, a, hd⟩

/-- The files that a summary lists for their margins are, in order, those of the decisions with a
margin rate below the threshold that the summary names. A decision records both amounts. It has a
margin rate just when neither of them is negative and the revenue is not zero, and then that is the
quotient; and the amounts are among its reasons just when one of them is negative. -/
theorem run_reports_margins
    (hrun : w.exec (run s (gate.map PolicyGate.review) now) = (.ok o, w')) :
    o.summary.marginFiles = (o.summary.decisions.filter fun r =>
      r.decision.kpi.marginRate.any (· < o.summary.economics.minMarginRateAdvisory)).map
        (fun r => r.decision.fileName) ∧
    ∀ r ∈ o.summary.decisions, ∃ revenue cost,
      r.decision.kpi.revenueUsdc = some revenue ∧ r.decision.kpi.tokenCostUsdc = some cost ∧
      (r.decision.kpi.marginRate.isSome ↔ ¬ revenue < 0.0 ∧ ¬ cost < 0.0 ∧ ¬ revenue == 0.0) ∧
      (∀ rate, r.decision.kpi.marginRate = some rate → rate = (revenue - cost) / revenue) ∧
      ("econ_invalid_negative_values" ∈ r.decision.reasons ↔ revenue < 0.0 ∨ cost < 0.0) := by
  obtain ⟨files, w₁, final, w₂, -, hreview, hcarry⟩ := run_ok hrun
  have hsummary := (carryOut_ok hcarry).1
  have hrecords : ∀ r ∈ o.summary.decisions, r.decision.Costed s.gates.minMarginRate := by
    intro r hr
    obtain ⟨f, a, hd⟩ := mem_decisions_run hrun r hr
    rw [hd]
    exact (Candidate.decide_costed s.gates _ _).override a
  refine ⟨?_, fun r hr => ?_⟩
  · have hfiles : o.summary.marginFiles = Summary.marginFilesOf o.summary.decisions := by
      rw [hsummary]
      rfl
    have hleast : o.summary.economics.minMarginRateAdvisory = s.gates.minMarginRate := by
      rw [hsummary]
      rfl
    rw [hfiles, hleast, Summary.marginFilesOf]
    refine congrArg _ (List.filter_congr fun r hr => ?_)
    exact Bool.eq_iff_iff.mpr (hrecords r hr).warned
  · obtain ⟨revenue, cost, hrevenue, hcost, hrate, hreason⟩ := (hrecords r hr).amounts
    refine ⟨revenue, cost, hrevenue, hcost, ?_, fun rate h => ?_, hreason⟩
    · rw [hrate]
      split_ifs with hdefined
      · exact iff_of_true rfl hdefined
      · exact iff_of_false (by simp) hdefined
    · rw [hrate] at h
      split_ifs at h
      exact (Option.some_inj.mp h).symm

/-- Of three proposals one costs more than it earns, one earns more, and one has a negative cost. The
first is listed for its margin although the gate has overruled the decision about it, and the last one
has a reason against it. -/
theorem run_reports_margins_promotesFirst :
    let w : World := { tree := Specimen.priced }
    ∃ o w', w.exec (run Specimen.settings ((some promotesFirst).map PolicyGate.review) (.utc ⟨0, 0⟩))
        = (.ok o, w') ∧
      o.summary.decisions.map (fun r => (r.decision.fileName, r.decision.kpi.marginRate))
        = [("a.md", some (-1.0)), ("b.md", some 0.75), ("c.md", none)] ∧
      (o.summary.decisions.filter fun r =>
        r.decision.kpi.marginRate.any (· < o.summary.economics.minMarginRateAdvisory)).map
          (fun r => r.decision.fileName) = ["a.md"] ∧
      o.summary.marginFiles = ["a.md"] ∧
      ∀ r ∈ o.summary.decisions, ∃ revenue cost,
        r.decision.kpi.revenueUsdc = some revenue ∧ r.decision.kpi.tokenCostUsdc = some cost ∧
        ("econ_invalid_negative_values" ∈ r.decision.reasons ↔ revenue < 0.0 ∨ cost < 0.0) := by
  intro w
  have hseen : ((w.exec (run Specimen.settings ((some promotesFirst).map PolicyGate.review)
      (.utc ⟨0, 0⟩))).1.toOption.map fun o =>
        (o.summary.decisions.map (fun r => (r.decision.fileName, r.decision.kpi.marginRate)),
          (o.summary.decisions.filter fun r => r.decision.kpi.marginRate.any
            (· < o.summary.economics.minMarginRateAdvisory)).map (fun r => r.decision.fileName)))
      = some ([("a.md", some (-1.0)), ("b.md", some 0.75), ("c.md", none)], ["a.md"]) := by
    decide +kernel
  obtain ⟨o, w', hrun, hseen⟩ := World.exists_of_seen hseen
  obtain ⟨hrates, hbelow⟩ := Prod.mk.inj hseen
  obtain ⟨hfiles, hamounts⟩ := run_reports_margins hrun
  refine ⟨o, w', hrun, hrates, hbelow, hfiles.trans hbelow, fun r hr => ?_⟩
  obtain ⟨revenue, cost, hrevenue, hcost, -, -, hreason⟩ := hamounts r hr
  exact ⟨revenue, cost, hrevenue, hcost, hreason⟩

end Run

end ProposalReview
