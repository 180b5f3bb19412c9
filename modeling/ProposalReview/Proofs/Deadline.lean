import ProposalReview.Proofs.Decimal.Nearest
import ProposalReview.Proofs.Decimal.Value
import ProposalReview.Proofs.Text.Blank
import ProposalReview.Settings
/-!
How long a policy gate is waited for.

    seconds             deadline
    ───────             ────────
    no number, ≤ 0      a tenth of a second
    > 0, < 2 ^ 64       the nearest nanosecond, but no less than that
    ≥ 2 ^ 64            the greatest span

A number of seconds that is too great has no span, and neither has one that is negative; but the latter is
dealt with before, so what has no span gets the greatest one. Below 2 ^ 64 the next float is 2 ^ 11 less, so
rounding does not lead up to it, and the deadline grows with the seconds.
-/

namespace ProposalReview

open Decimal Float.Model Float.Model.UnpackedFloat

variable {x y : Float} {s s' : Span} {m n : ℕ} {e : Int}

/-! ### Floats below a bound -/

namespace Decimal

theorem unpack_secondsLimit : (18446744073709551616.0 : Float).toModel.unpack =
    .finite .positive (2 ^ 52) 12 (by decide) := by rfl

/-- A positive float below the limit has a positive mantissa, and its exponent is less than that of the
limit. -/
theorem unpack_of_seconds (hpos : 0.0 < x) (hlt : x < 18446744073709551616.0) :
    ∃ m e hm, x.toModel.unpack = .finite .positive m e hm ∧ m < 2 ^ 53 ∧ e ≤ 11 := by
  rw [lt_iff_compare, unpack_zero] at hpos
  rw [lt_iff_compare, unpack_secondsLimit] at hlt
  have hcanonical := canonical_unpack x.toModel
  rcases hx : x.toModel.unpack with (_ | _) | _ | _ | ⟨_ | _, m, e, hm⟩ <;> rw [hx] at hpos hlt hcanonical <;>
    simp only [UnpackedFloat.compare, Option.some_inj, reduceCtorEq] at hpos hlt
  rw [compare_fields_eq_lt] at hlt
  obtain ⟨hbits, -, hfull⟩ := hcanonical
  exact ⟨m, e, hm, rfl, hbits, by omega⟩

/-- The number of a float below the limit is at least as far below it as the float before is. -/
theorem value_le_of_seconds (hpos : 0.0 < x) (hlt : x < 18446744073709551616.0) :
    value x ≤ 2 ^ 64 - 2 ^ 11 := by
  obtain ⟨m, e, hm, hx, hbits, he⟩ := unpack_of_seconds hpos hlt
  have hmantissa : (m : ℚ) ≤ 2 ^ 53 - 1 := by
    have : (m : ℚ) + 1 ≤ 2 ^ 53 := by exact_mod_cast hbits
    linarith
  have hpow : (2 : ℚ) ^ e ≤ 2 ^ (11 : Int) := zpow_le_zpow_right₀ one_le_two he
  rw [value, hx]
  calc (m : ℚ) * 2 ^ e ≤ (2 ^ 53 - 1) * 2 ^ (11 : Int) := by gcongr
    _ = 2 ^ 64 - 2 ^ 11 := by norm_num

end Decimal

/-! ### Spans -/

namespace Span

@[simp] theorem totalNanos_ofNanos (n : ℕ) : (ofNanos n).totalNanos = n := Nat.div_add_mod' n _

theorem ofNanos_atLeast (m n : ℕ) : (ofNanos n).atLeast (ofNanos m) = ofNanos (max m n) := by
  rw [atLeast, totalNanos_ofNanos, totalNanos_ofNanos]
  split_ifs with h
  · rw [max_eq_left h.le]
  · rw [max_eq_right (Nat.le_of_not_lt h)]

/-- A positive number of seconds below the limit has the span of the nearest number of nanoseconds. -/
theorem ofSeconds?_eq (hpos : 0.0 < x) (hlt : x < 18446744073709551616.0) :
    ∃ n, NearestEven (value x * 10 ^ 9) n ∧ ofSeconds? x = some (ofNanos n) := by
  obtain ⟨m, e, hm, hx, -, -⟩ := unpack_of_seconds hpos hlt
  have hin : ¬ (x < 0.0 ∨ 18446744073709551616.0 ≤ x) := by
    rintro (hneg | hge)
    · exact not_le_of_lt hpos (le_of_lt hneg)
    · exact not_le_of_lt hlt hge
  have hvalue : ((Ratio.twoPow e).scale (m * 1000000000)).value = value x * 10 ^ 9 := by
    rw [Ratio.value_scale, Ratio.value_twoPow, value, hx, rational]
    simp only [Sign.apply]
    push_cast
    ring
  have hnearest := Ratio.nearestEven_round (a := (Ratio.twoPow e).scale (m * 1000000000))
    (Ratio.den_twoPow_pos e)
  rw [hvalue] at hnearest
  refine ⟨_, hnearest, ?_⟩
  rw [ofSeconds?, if_neg hin, ofFloat_eq, hx]
  rfl

/-- Whether a span is what a gate is waited for when a number of seconds is set. -/
structure Awaits (x : Float) (s : Span) : Prop where
  least : x.isNaN ∨ x ≤ 0.0 → s = ⟨0, 100000000⟩
  nearest : 0.0 < x → x < 18446744073709551616.0 →
    ∃ n : ℕ, NearestEven (value x * 10 ^ 9) n ∧ s = ofNanos (max 100000000 n)
  greatest : 18446744073709551616.0 ≤ x → s = ⟨2 ^ 64 - 1, 999999999⟩

/-- A number of seconds is not positive or no number, or is below the limit, or is not. -/
theorem seconds_cases (x : Float) : (x.isNaN ∨ x ≤ 0.0) ∨
    0.0 < x ∧ x < 18446744073709551616.0 ∨ 18446744073709551616.0 ≤ x := by
  have hzero : ¬ (0.0 : Float).isNaN := Bool.eq_false_iff.mp rfl
  have hlimit : ¬ (18446744073709551616.0 : Float).isNaN :=
    Bool.eq_false_iff.mp (isNaN_of_isFinite (isFinite_of_unpack unpack_secondsLimit))
  by_cases hnan : x.isNaN
  · exact .inl (.inl hnan)
  by_cases hpos : 0.0 < x
  · by_cases hlt : x < 18446744073709551616.0
    · exact .inr (.inl ⟨hpos, hlt⟩)
    · rcases not_lt_iff.mp hlt with hge | hnan' | hnan'
      · exact .inr (.inr hge)
      · exact absurd hnan' hnan
      · exact absurd hnan' hlimit
  · rcases not_lt_iff.mp hpos with hle | hnan' | hnan'
    · exact .inl (.inr hle)
    · exact absurd hnan' hzero
    · exact absurd hnan' hnan

/-- Rounding does not lead up to the limit. -/
theorem nanos_le_of_seconds (hpos : 0.0 < x) (hlt : x < 18446744073709551616.0)
    (hn : NearestEven (value x * 10 ^ 9) n) : n ≤ (2 ^ 64 - 2 ^ 11) * 10 ^ 9 := by
  have hcast : (((2 ^ 64 - 2 ^ 11) * 10 ^ 9 : ℕ) : ℚ) = (2 ^ 64 - 2 ^ 11) * 10 ^ 9 := by norm_num
  refine hn.le_of_le ?_
  rw [hcast]
  exact mul_le_mul_of_nonneg_right (value_le_of_seconds hpos hlt) (by positivity)

namespace Awaits

/-- A deadline is at least a tenth of a second, and it is a span: less than a second of nanoseconds, and
seconds of 64 bits. -/
theorem fits (h : Awaits x s) :
    100000000 ≤ s.totalNanos ∧ s.seconds < 2 ^ 64 ∧ s.nanos < 1000000000 := by
  rcases seconds_cases x with hleast | ⟨hpos, hlt⟩ | hge
  · rw [h.least hleast]
    decide
  · obtain ⟨n, hn, rfl⟩ := h.nearest hpos hlt
    have hbound := nanos_le_of_seconds hpos hlt hn
    refine ⟨by simp, ?_, Nat.mod_lt _ (by decide)⟩
    change max 100000000 n / 1000000000 < 2 ^ 64
    omega
  · rw [h.greatest hge]
    decide

/-- To set more seconds never shortens the deadline. -/
theorem mono (h : Awaits x s) (h' : Awaits y s') (hle : x ≤ y) : s.totalNanos ≤ s'.totalNanos := by
  rcases seconds_cases x with hleast | ⟨hpos, hlt⟩ | hge
  · rw [h.least hleast]
    exact h'.fits.1
  · obtain ⟨n, hn, rfl⟩ := h.nearest hpos hlt
    rcases seconds_cases y with (hnan | hneg) | ⟨hpos', hlt'⟩ | hge'
    · exact absurd hle (not_le_of_isNaN (.inr hnan))
    · exact absurd (le_of_le_of_le hle hneg) (not_le_of_lt hpos)
    · obtain ⟨n', hn', rfl⟩ := h'.nearest hpos' hlt'
      obtain ⟨_, _, _, hx, -, -⟩ := unpack_of_seconds hpos hlt
      obtain ⟨_, _, _, hy, -, -⟩ := unpack_of_seconds hpos' hlt'
      have hvalue := (le_iff_value (isFinite_of_unpack hx) (isFinite_of_unpack hy)).mp hle
      rw [totalNanos_ofNanos, totalNanos_ofNanos]
      exact max_le_max le_rfl (hn.mono hn' (by gcongr))
    · have hbound := nanos_le_of_seconds hpos hlt hn
      rw [h'.greatest hge', totalNanos_ofNanos]
      change max 100000000 n ≤ (2 ^ 64 - 1) * 1000000000 + 999999999
      omega
  · rw [h.greatest hge, h'.greatest (le_of_le_of_le hge hle)]

end Awaits

end Span

theorem deadline_of_pos (hpos : 0.0 < x) :
    deadline x = ((Span.ofSeconds? x).getD .greatest).atLeast .least := by
  have hnan : x.isNaN = false := (lt_iff_rank.mp hpos).2.1
  have hle : ¬ x ≤ 0.0 := not_le_of_lt hpos
  rw [deadline, if_neg]
  rw [hnan, Bool.false_or, decide_eq_true_iff]
  exact hle

/-- The deadline is that of the seconds in each of the three cases. -/
theorem awaits_deadline (x : Float) : Span.Awaits x (deadline x) := by
  constructor
  · intro hleast
    rw [deadline, if_pos]
    · rfl
    · rwa [Bool.or_eq_true, decide_eq_true_iff]
  · intro hpos hlt
    obtain ⟨n, hn, hspan⟩ := Span.ofSeconds?_eq hpos hlt
    refine ⟨n, hn, ?_⟩
    rw [deadline_of_pos hpos, hspan]
    exact Span.ofNanos_atLeast 100000000 n
  · intro hge
    have hlimit : (0.0 : Float) < 18446744073709551616.0 := by
      rw [lt_iff_compare, unpack_zero, unpack_secondsLimit]
      rfl
    have hnone : Span.ofSeconds? x = none := by rw [Span.ofSeconds?, if_pos (.inr hge)]
    rw [deadline_of_pos (lt_of_lt_and_le hlimit hge), hnone, Option.getD_none, Span.atLeast, if_neg]
    · rfl
    · simp [Span.totalNanos, Span.greatest, Span.least]

/-! ### The settings of a gate -/

namespace PolicyGateSettings

variable {url : String} {p : PolicyGateSettings}

/-- There is a gate unless the address is blank. -/
theorem of?_eq_none_iff : of? url x = none ↔ ∀ c ∈ url.toList, Text.isBlank c := by
  rw [of?, ← Text.isEmpty_trimmed]
  split_ifs with hblank
  · exact iff_of_true rfl hblank
  · exact iff_of_false (by simp) hblank

theorem of?_eq_some_iff : of? url x = some p ↔
    (¬ ∀ c ∈ url.toList, Text.isBlank c) ∧ p = ⟨Text.trimmed url, deadline x⟩ := by
  rw [of?, ← Text.isEmpty_trimmed]
  split_ifs with hblank
  · simp [hblank]
  · simp [hblank, eq_comm]

/-- A gate whose address is not blank is waited for as long as the seconds say. That is never less than a
tenth of a second, and with more seconds it is never less than with fewer. -/
theorem awaits_seconds (x : Float) (hurl : ¬ ∀ c ∈ url.toList, Text.isBlank c) :
    ∃ p, of? url x = some p ∧ Span.Awaits x p.timeout ∧
      (100000000 ≤ p.timeout.totalNanos ∧ p.timeout.seconds < 2 ^ 64 ∧ p.timeout.nanos < 1000000000) ∧
      ∀ url' y p', of? url' y = some p' → x ≤ y → p.timeout.totalNanos ≤ p'.timeout.totalNanos := by
  have hdeadline := awaits_deadline x
  refine ⟨_, of?_eq_some_iff.mpr ⟨hurl, rfl⟩, hdeadline, hdeadline.fits, fun url' y p' hp' hle => ?_⟩
  obtain ⟨-, rfl⟩ := of?_eq_some_iff.mp hp'
  exact hdeadline.mono (awaits_deadline y) hle

/-- A quarter of a second, in a gate with blanks around its address. -/
theorem awaits_seconds_quarter : (¬ ∀ c ∈ " http://gate\n".toList, Text.isBlank c) ∧
    ∃ p, of? " http://gate\n" 0.25 = some p ∧ p.timeout = ⟨0, 250000000⟩ := by
  have hurl : ¬ ∀ c ∈ " http://gate\n".toList, Text.isBlank c :=
    fun hall => absurd (hall 'g' (by simp)) (by decide)
  obtain ⟨p, hp, hawaits, -, -⟩ := awaits_seconds 0.25 hurl
  have hunpack : (0.25 : Float).toModel.unpack = .finite .positive (2 ^ 52) (-54) (by decide) := by rfl
  obtain ⟨n, hn, htimeout⟩ := hawaits.nearest (by rw [lt_iff_compare, unpack_zero, hunpack]; rfl)
    (by rw [lt_iff_compare, hunpack, unpack_secondsLimit]; rfl)
  have hvalue : value 0.25 * 10 ^ 9 = (250000000 : ℕ) := by
    rw [value, hunpack, rational]
    norm_num [Sign.apply]
  rw [hvalue] at hn
  rw [hn.unique (.natCast _)] at htimeout
  exact ⟨hurl, p, hp, htimeout⟩

end PolicyGateSettings

end ProposalReview
