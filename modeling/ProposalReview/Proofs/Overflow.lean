import ProposalReview.Proofs.Decimal.Value
import ProposalReview.Proofs.Json.Null
import ProposalReview.Proofs.Margins
import ProposalReview.Proofs.Proposal.Number
/-!
Which figures of a report are finite.

What a proposal states is finite, or it does not count as a number, and so are the amounts that it
leaves to the defaults. What is worked out from them may overflow: a margin rate if the revenue is tiny
beside the token cost, and a total or a mean if a partial sum does. Such a figure is defined, and yet it
is printed as null, like one that is not.

    figure                  finite unless
    ratios and amounts      (always)
    margin rate             the quotient overflows
    total                   a partial sum overflows
    net margin              a total is not finite, or their difference overflows
    average margin rate     a rate is not finite, or a partial sum of the rates overflows
-/

namespace ProposalReview

open Decimal

variable {x y : Float} {xs : List Float}

/-! ### Sums -/

namespace Summary

/-- Whether a partial sum of floats overflows. -/
def SumOverflows (xs : List Float) : Prop :=
  ∃ before x after, xs = before ++ x :: after ∧ Overflows (value (sum before) + value x)

theorem not_sumOverflows_nil : ¬ SumOverflows [] := by
  rintro ⟨before, x, after, h, -⟩
  simp at h

theorem sumOverflows_append_singleton :
    SumOverflows (xs ++ [x]) ↔ SumOverflows xs ∨ Overflows (value (sum xs) + value x) := by
  constructor
  · rintro ⟨before, y, after, h, hover⟩
    rcases List.eq_nil_or_concat' after with rfl | ⟨after, z, rfl⟩
    · obtain ⟨rfl, hlast⟩ := List.append_inj' h rfl
      obtain rfl := List.singleton_inj.mp hlast
      exact .inr hover
    · rw [← List.cons_append, ← List.append_assoc] at h
      exact .inl ⟨before, y, after, (List.append_inj' h rfl).1, hover⟩
  · rintro (⟨before, y, after, rfl, hover⟩ | hover)
    · exact ⟨before, y, after ++ [x], by simp, hover⟩
    · exact ⟨xs, x, [], rfl, hover⟩

theorem sum_append_singleton (xs : List Float) (x : Float) : sum (xs ++ [x]) = sum xs + x := by
  rw [sum, List.foldl_append]
  rfl

/-- A sum is finite just when all floats are and no partial sum overflows. -/
theorem isFinite_sum (xs : List Float) :
    (sum xs).isFinite = true ↔ (∀ x ∈ xs, x.isFinite = true) ∧ ¬ SumOverflows xs := by
  induction xs using List.reverseRecOn with
  | nil => exact iff_of_true rfl ⟨by simp, not_sumOverflows_nil⟩
  | append_singleton xs x ih =>
    rw [sum_append_singleton, sumOverflows_append_singleton, not_or]
    constructor
    · intro h
      obtain ⟨hsum, hx⟩ := isFinite_of_add h
      obtain ⟨hxs, hbefore⟩ := ih.mp hsum
      refine ⟨?_, hbefore, (isFinite_add hsum hx).mp h⟩
      simpa [or_imp, forall_and] using ⟨hxs, hx⟩
    · rintro ⟨hall, hbefore, hlast⟩
      have hxs : ∀ y ∈ xs, y.isFinite = true := fun y hy => hall y (by simp [hy])
      exact (isFinite_add (ih.mpr ⟨hxs, hbefore⟩) (hall x (by simp))).mpr hlast

/-- A mean is finite just when the sum is. -/
theorem isFinite_mean? {mean : Float} (h : mean? xs = some mean) :
    mean.isFinite = true ↔ (∀ x ∈ xs, x.isFinite = true) ∧ ¬ SumOverflows xs := by
  rw [mean?] at h
  split_ifs at h with hempty
  obtain rfl := Option.some_inj.mp h
  rw [← isFinite_sum]
  refine ⟨isFinite_of_div, fun hsum => isFinite_div_of_large hsum (large_ofNat ?_)⟩
  exact List.length_pos_iff.mpr (by simpa using hempty)

end Summary

/-! ### Figures of a proposal -/

/-- Whether the figures of a proposal are finite, but for a margin rate that overflows. -/
structure Kpi.Finite (k : Kpi) : Prop where
  ratios : ∀ x, k.successRate = some x ∨ k.drift = some x ∨ k.reproducibility = some x →
    x.isFinite = true
  amounts : ∃ revenue cost, k.revenueUsdc = some revenue ∧ revenue.isFinite = true ∧
    k.tokenCostUsdc = some cost ∧ cost.isFinite = true ∧
    ∀ rate, k.marginRate = some rate →
      (rate.isFinite = true ↔ ¬ Overflows (value (revenue - cost) / value revenue))

/-- The figures of a proposal are finite if the defaults are. -/
theorem Candidate.kpi_finite {t : Thresholds} (name : String) (text : List Char) (age : Float)
    (hrevenue : t.defaultRevenueUsdc.isFinite = true) (hcost : t.defaultTokenCostUsdc.isFinite = true) :
    (Candidate.kpi t ⟨name, Metadata.ofText text, age⟩).Finite where
  ratios := by
    rintro x (h | h | h) <;> exact Metadata.isFinite_of_number? h
  amounts := by
    set c : Candidate := ⟨name, Metadata.ofText text, age⟩
    have hgiven : ∀ {k : Option Float} {d : Float}, (∀ x, k = some x → x.isFinite = true) →
        d.isFinite = true → (k.getD d).isFinite = true := by
      rintro (_ | x) d hk hd
      · exact hd
      · exact hk x rfl
    have hr : (c.revenue t).isFinite = true :=
      hgiven (fun _ h => Metadata.isFinite_of_number? h) hrevenue
    have hc : (c.tokenCost t).isFinite = true :=
      hgiven (fun _ h => Metadata.isFinite_of_number? h) hcost
    refine ⟨c.revenue t, c.tokenCost t, rfl, hr, rfl, hc, fun rate hrate => ?_⟩
    change c.marginRate? t = some rate at hrate
    rw [Candidate.marginRate?_eq] at hrate
    split_ifs at hrate with hdefined
    obtain ⟨hr₀, hc₀, hne⟩ := hdefined
    obtain rfl := Option.some_inj.mp hrate
    exact isFinite_div (isFinite_sub_of_nonneg hr hc hr₀ hc₀) hr (value_ne_zero hr hne)

theorem Kpi.Finite.eq_none_of_printsNull {k : Kpi} (h : k.Finite) :
    ∀ x ∈ [k.successRate, k.drift, k.reproducibility, k.revenueUsdc, k.tokenCostUsdc],
      Json.PrintsNull x → x = none := by
  intro k' hk' hnull
  rcases k' with _ | x
  · rfl
  refine absurd ?_ (Json.printsNull_iff.mp hnull x rfl)
  obtain ⟨revenue, cost, hrevenue, hr, hcost, hc, -⟩ := h.amounts
  simp only [List.mem_cons, List.not_mem_nil, or_false, hrevenue, hcost, Option.some_inj] at hk'
  rcases hk' with h' | h' | h' | rfl | rfl
  · exact h.ratios x (.inl h'.symm)
  · exact h.ratios x (.inr (.inl h'.symm))
  · exact h.ratios x (.inr (.inr h'.symm))
  · exact hr
  · exact hc

/-- A margin rate is printed as null just when it is undefined or overflows. -/
theorem Kpi.Finite.printsNull_marginRate {k : Kpi} (h : k.Finite) :
    Json.PrintsNull k.marginRate ↔ k.marginRate = none ∨
      ∃ revenue cost, k.revenueUsdc = some revenue ∧ k.tokenCostUsdc = some cost ∧
        Overflows (value (revenue - cost) / value revenue) := by
  obtain ⟨revenue, cost, hrevenue, -, hcost, -, hrate⟩ := h.amounts
  rw [Json.printsNull_iff]
  rcases hk : k.marginRate with _ | rate
  · simp
  · have hover := not_iff_comm.mp (hrate rate hk).symm
    simpa [hrevenue, hcost] using hover

/-! ### Figures of a run -/

/-- Whether all floats among the settings of the gates are finite. -/
def Thresholds.Finite (t : Thresholds) : Prop :=
  ∀ x ∈ [t.slaHours, t.minSuccess, t.maxDrift, t.minRepro, t.defaultRevenueUsdc,
    t.defaultTokenCostUsdc, t.minMarginRate], x.isFinite = true

instance (t : Thresholds) : Decidable t.Finite := inferInstanceAs (Decidable (∀ x ∈ _, _))

namespace Summary

/-- The revenues that records state. -/
def revenues (rs : List Record) : List Float := rs.filterMap fun r => r.decision.kpi.revenueUsdc

/-- The token costs that records state. -/
def tokenCosts (rs : List Record) : List Float := rs.filterMap fun r => r.decision.kpi.tokenCostUsdc

/-- The margin rates that are defined. -/
def marginRates (rs : List Record) : List Float := rs.filterMap fun r => r.decision.kpi.marginRate

theorem map_getD_eq_filterMap {rs : List Record} {φ : Record → Option Float}
    (h : ∀ r ∈ rs, ∃ x, φ r = some x) : (rs.map fun r => (φ r).getD 0.0) = rs.filterMap φ := by
  induction rs with
  | nil => rfl
  | cons r rs ih =>
    obtain ⟨x, hx⟩ := h r (List.mem_cons_self ..)
    rw [List.map_cons, List.filterMap_cons_some hx, hx, ih fun r hr => h r (List.mem_cons_of_mem _ hr)]
    rfl

variable {rs : List Record} {least : Float}

/-- A total is finite just when no partial sum of the amounts overflows. -/
theorem isFinite_total {φ : Record → Option Float}
    (h : ∀ r ∈ rs, ∃ x, φ r = some x ∧ x.isFinite = true) :
    (sum (rs.map fun r => (φ r).getD 0.0)).isFinite = true ↔ ¬ SumOverflows (rs.filterMap φ) := by
  rw [map_getD_eq_filterMap fun r hr => (h r hr).imp fun _ hx => hx.1, isFinite_sum]
  refine and_iff_right fun x hx => ?_
  obtain ⟨r, hr, hφ⟩ := List.mem_filterMap.mp hx
  obtain ⟨y, hy, hfinite⟩ := h r hr
  rw [hφ] at hy
  rwa [Option.some_inj.mp hy]

theorem isFinite_totalNetMargin : (economicsOf least rs).totalNetMarginUsdc.isFinite = true ↔
    (economicsOf least rs).totalRevenueUsdc.isFinite = true ∧
    (economicsOf least rs).totalTokenCostUsdc.isFinite = true ∧
    ¬ Overflows (value (economicsOf least rs).totalRevenueUsdc
      - value (economicsOf least rs).totalTokenCostUsdc) := by
  constructor
  · intro h
    obtain ⟨hrevenue, hcost⟩ := isFinite_of_sub h
    exact ⟨hrevenue, hcost, (isFinite_sub hrevenue hcost).mp h⟩
  · rintro ⟨hrevenue, hcost, hover⟩
    exact (isFinite_sub hrevenue hcost).mpr hover

/-- The average margin rate is printed as null just when no rate is defined, or one of them is not
finite, or a partial sum overflows. -/
theorem printsNull_avgMarginRate : Json.PrintsNull (economicsOf least rs).avgMarginRate ↔
    marginRates rs = [] ∨ (∃ rate ∈ marginRates rs, rate.isFinite = false) ∨
      SumOverflows (marginRates rs) := by
  have hmean : (economicsOf least rs).avgMarginRate = mean? (marginRates rs) := rfl
  rw [Json.printsNull_iff, hmean]
  rcases hm : mean? (marginRates rs) with _ | mean
  · rw [mean?] at hm
    split_ifs at hm with hempty
    simp [List.isEmpty_iff.mp hempty]
  · have hne : marginRates rs ≠ [] := by
      intro hempty
      simp [hempty, mean?] at hm
    have hfinite := not_congr (isFinite_mean? hm)
    rw [not_and_or, not_not] at hfinite
    simpa [hne] using hfinite

end Summary

/-- A tree with two proposals whose revenue is tiny beside the token cost. -/
def Specimen.steep : Tree :=
  let text := Entry.file (Text.encodeString "revenue_usdc: 1e-300\ntoken_cost_usdc: 1e8") ⟨0, 0⟩
  ⟨[([[0x69]], .directory), ([[0x69], name], text), ([[0x69], otherName], text)]⟩

theorem Specimen.settings_finite : Specimen.settings.gates.toThresholds.Finite := by
  decide +kernel

namespace Run

open Summary Json

variable {s : Settings} {gate : Option PolicyGate} {now : RunClock} {w w' : World} {o : Outcome}

theorem decisions_finite (hrun : w.exec (run s (gate.map PolicyGate.review) now) = (.ok o, w'))
    (hfinite : s.gates.toThresholds.Finite) : ∀ r ∈ o.summary.decisions, r.decision.kpi.Finite := by
  intro r hr
  obtain ⟨f, a, hd⟩ := mem_decisions_run hrun r hr
  rw [hd, Decision.override_eq]
  exact Candidate.kpi_finite f.name f.text (now.hoursSince f.modified) (hfinite _ (by simp))
    (hfinite _ (by simp))

/-- Which figures of a report are finite, if the settings are. The ratios and amounts of every proposal
are, and a margin rate unless its quotient overflows. A total is finite unless a partial sum overflows,
the net margin unless a total or the difference does, and the average margin rate unless a rate or a
partial sum of the rates does. What is printed as null is undefined or has overflowed. -/
theorem run_figures_finite_iff
    (hrun : w.exec (run s (gate.map PolicyGate.review) now) = (.ok o, w'))
    (hfinite : s.gates.toThresholds.Finite) :
    let rs := o.summary.decisions
    let e := o.summary.economics
    (∀ r ∈ rs, r.decision.kpi.Finite) ∧
    (e.totalRevenueUsdc.isFinite = true ↔ ¬ SumOverflows (revenues rs)) ∧
    (e.totalTokenCostUsdc.isFinite = true ↔ ¬ SumOverflows (tokenCosts rs)) ∧
    (e.totalNetMarginUsdc.isFinite = true ↔
      e.totalRevenueUsdc.isFinite = true ∧ e.totalTokenCostUsdc.isFinite = true ∧
      ¬ Overflows (value e.totalRevenueUsdc - value e.totalTokenCostUsdc)) ∧
    (∀ mean, e.avgMarginRate = some mean → (mean.isFinite = true ↔
      (∀ rate ∈ marginRates rs, rate.isFinite = true) ∧ ¬ SumOverflows (marginRates rs))) ∧
    (∀ r ∈ rs, ∀ x ∈ [r.decision.kpi.successRate, r.decision.kpi.drift,
      r.decision.kpi.reproducibility, r.decision.kpi.revenueUsdc, r.decision.kpi.tokenCostUsdc],
        PrintsNull x → x = none) ∧
    (∀ r ∈ rs, PrintsNull r.decision.kpi.marginRate ↔ r.decision.kpi.marginRate = none ∨
      ∃ revenue cost, r.decision.kpi.revenueUsdc = some revenue ∧
        r.decision.kpi.tokenCostUsdc = some cost ∧
        Overflows (value (revenue - cost) / value revenue)) ∧
    (PrintsNull e.avgMarginRate ↔ marginRates rs = [] ∨
      (∃ rate ∈ marginRates rs, rate.isFinite = false) ∨ SumOverflows (marginRates rs)) := by
  intro rs e
  have hrecords := decisions_finite hrun hfinite
  obtain ⟨files, w₁, final, w₂, -, -, hcarry⟩ := run_ok hrun
  have he : e = economicsOf s.gates.minMarginRate rs := by
    have hsummary := (carryOut_ok hcarry).1
    simp only [e, rs, hsummary]
    rfl
  rw [he]
  refine ⟨hrecords, isFinite_total fun r hr => ?_, isFinite_total fun r hr => ?_,
    isFinite_totalNetMargin, fun mean hmean => isFinite_mean? hmean,
    fun r hr => (hrecords r hr).eq_none_of_printsNull,
    fun r hr => (hrecords r hr).printsNull_marginRate, printsNull_avgMarginRate⟩
  · obtain ⟨revenue, -, hrevenue, hfinite, -⟩ := (hrecords r hr).amounts
    exact ⟨revenue, hrevenue, hfinite⟩
  · obtain ⟨-, cost, -, -, hcost, hfinite, -⟩ := (hrecords r hr).amounts
    exact ⟨cost, hcost, hfinite⟩

/-- Two proposals have finite margin rates of about `-10 ^ 308`, and their sum overflows. -/
theorem run_steep : ∃ o w', World.exec { tree := Specimen.steep }
      (run Specimen.settings ((some promotesFirst).map PolicyGate.review) (.utc ⟨0, 0⟩)) = (.ok o, w') ∧
    (∀ rate ∈ marginRates o.summary.decisions, rate.isFinite = true) ∧
    (∃ mean, o.summary.economics.avgMarginRate = some mean ∧ mean.isFinite = false) ∧
    o.summary.economics.totalTokenCostUsdc.isFinite = true := by
  have hseen : ((World.exec { tree := Specimen.steep } (run Specimen.settings
      ((some promotesFirst).map PolicyGate.review) (.utc ⟨0, 0⟩))).1.toOption.map fun o =>
        ((marginRates o.summary.decisions).all Float.isFinite,
          o.summary.economics.avgMarginRate.map Float.isFinite,
          o.summary.economics.totalTokenCostUsdc.isFinite)) = some (true, some false, true) := by
    decide +kernel
  obtain ⟨o, w', hrun, hseen⟩ := World.exists_of_seen hseen
  simp only [Prod.mk.injEq, List.all_eq_true, Option.map_eq_some_iff] at hseen
  exact ⟨o, w', hrun, hseen⟩

/-- The average margin rate of these proposals is defined, and yet it is printed as null. -/
theorem run_figures_finite_iff_promotesFirst :
    ∃ o w', World.exec { tree := Specimen.steep }
        (run Specimen.settings ((some promotesFirst).map PolicyGate.review) (.utc ⟨0, 0⟩)) = (.ok o, w') ∧
      Specimen.settings.gates.toThresholds.Finite ∧
      (∀ r ∈ o.summary.decisions, r.decision.kpi.Finite) ∧
      SumOverflows (marginRates o.summary.decisions) ∧
      ¬ SumOverflows (tokenCosts o.summary.decisions) ∧
      PrintsNull o.summary.economics.avgMarginRate := by
  obtain ⟨o, w', hrun, hrates, ⟨mean, hmean, hinfinite⟩, htotal⟩ := run_steep
  obtain ⟨hrecords, -, hcost, -, haverage, -, -, hnull⟩ :=
    run_figures_finite_iff hrun Specimen.settings_finite
  have hover : SumOverflows (marginRates o.summary.decisions) := by
    by_contra hnone
    exact absurd ((haverage mean hmean).mpr ⟨hrates, hnone⟩) (by simp [hinfinite])
  exact ⟨o, w', hrun, Specimen.settings_finite, hrecords, hover, hcost.mp htotal,
    hnull.mpr (.inr (.inr hover))⟩

/-- An average margin rate that is defined need not be finite, even if the settings and all margin rates
are. -/
theorem defined_average_overflows :
    ¬ ∀ (s : Settings) (gate : Option PolicyGate) (now : RunClock) (w w' : World) (o : Outcome),
      s.gates.toThresholds.Finite →
      w.exec (run s (gate.map PolicyGate.review) now) = (.ok o, w') →
      (∀ rate ∈ marginRates o.summary.decisions, rate.isFinite = true) →
      ∀ mean, o.summary.economics.avgMarginRate = some mean → mean.isFinite = true := by
  intro h
  obtain ⟨o, w', hrun, hrates, ⟨mean, hmean, hinfinite⟩, -⟩ := run_steep
  have hfinite := h Specimen.settings (some promotesFirst) (.utc ⟨0, 0⟩) _ w' o Specimen.settings_finite hrun
    hrates mean hmean
  simp [hinfinite] at hfinite

end Run

end ProposalReview
