import ProposalReview.Pattern.Reader
import ProposalReview.Proofs.Arguments
import ProposalReview.Proofs.Deadline
/-!
What settings come of the arguments and the environment.

    the two flags       pattern    address      settings
    ─────────────       ───────    ───────      ────────
    first only                                  the second one is missing
    else                refused                 the pattern does not compile
    both                compiles   blank        a gate is missing
    both                compiles   not blank    a real run
    not the first       compiles                a dry run

The checks are made in this order, whatever compiles the pattern. Every setting that comes out of them is the value that is written beside
its own name among the arguments, or its own default; the workspace and the address of a gate are without
outer blanks and not empty.
-/

namespace ProposalReview

open CommandLine

variable {env : Environment} {args : List Bytes} {compile : Pattern.Compiler} {c : Choices} {s : Settings}
  {t detail : String}

/-! ### Texts without outer blanks -/

namespace Text

/-- Whether a text is not empty and neither begins nor ends with a blank. -/
structure Neat (s : String) : Prop where
  nonempty : s ≠ ""
  head : ∀ c ∈ s.toList.head?, isBlank c = false
  last : ∀ c ∈ s.toList.getLast?, isBlank c = false

theorem neat_trimmed (h : ¬ ∀ c ∈ t.toList, isBlank c) : Neat (trimmed t) := by
  obtain ⟨_, _, -, -, -, hhead, hlast⟩ := trim_eq_iff.mp (rfl : trim t.toList = trim t.toList)
  rw [← isEmpty_trimmed, String.isEmpty_iff] at h
  exact ⟨h, by rwa [trimmed, String.toList_ofList], by rwa [trimmed, String.toList_ofList]⟩

end Text

theorem neat_normalWorkspace (t : String) : Text.Neat (normalWorkspace t) := by
  rw [normalWorkspace]
  split_ifs with hblank
  · have hw : Text.isBlank 'w' = false := by decide
    have hv : Text.isBlank 'v' = false := by decide
    exact ⟨by decide, by simpa [defaultWorkspace] using hw, by simpa [defaultWorkspace] using hv⟩
  · exact Text.neat_trimmed (by rwa [← Text.isEmpty_trimmed])

/-- A gate has an address without outer blanks, and is waited for at least a tenth of a second. -/
theorem PolicyGateSettings.neat_of?_eq_some {url : String} {x : Float} {p : PolicyGateSettings}
    (h : of? url x = some p) : Text.Neat p.url ∧ 100000000 ≤ p.timeout.totalNanos := by
  obtain ⟨hurl, rfl⟩ := of?_eq_some_iff.mp h
  exact ⟨Text.neat_trimmed hurl, (awaits_deadline x).fits.1⟩

/-! ### The checks -/

namespace Choices

/-- Whether the first flag for a real run is there without the second one. -/
def Unconfirmed (c : Choices) : Prop := c.realRun = true ∧ c.confirmRealRun = false

/-- Whether the flags ask for a real run and there is no address of a gate. -/
def Ungated (c : Choices) : Prop :=
  (c.realRun = true ∧ c.confirmRealRun = true) ∧ ∀ ch ∈ c.policyGateUrl.toList, Text.isBlank ch

/-- The mode that both flags are needed for, or else the other one. -/
def mode (c : Choices) : RunMode := if c.realRun && c.confirmRealRun then .real else .dryRun

/-- The settings that choices amount to if they pass the checks. -/
def settingsWith (c : Choices) (p : Pattern) : Settings where
  dirs := c.dirs
  gates := { c.thresholds with nameRule := ⟨c.requirePrefix, p⟩ }
  mode := c.mode
  workspace := normalWorkspace c.workspace
  policyGate := PolicyGateSettings.of? c.policyGateUrl c.policyGateTimeout
  seedSamples := c.seedSamples

theorem workspace_settingsWith (c : Choices) (p : Pattern) :
    (c.settingsWith p).workspace = normalWorkspace c.workspace := by
  rw [settingsWith]

theorem policyGate_settingsWith (c : Choices) (p : Pattern) : (c.settingsWith p).policyGate =
    PolicyGateSettings.of? c.policyGateUrl c.policyGateTimeout := by
  rw [settingsWith]

instance (c : Choices) : Decidable c.Unconfirmed := inferInstanceAs (Decidable (_ ∧ _))

instance (c : Choices) : Decidable c.Ungated := inferInstanceAs (Decidable (_ ∧ _))

theorem mode_eq_real_iff : c.mode = .real ↔ c.realRun = true ∧ c.confirmRealRun = true := by
  rw [mode, ← Bool.and_eq_true]
  split_ifs with h <;> simp [h]

theorem ofFlags_eq (c : Choices) : RunMode.ofFlags c.realRun c.confirmRealRun =
    if c.Unconfirmed then .error .unconfirmedRun else .ok c.mode := by
  by_cases h : c.Unconfirmed
  · rw [if_pos h, h.1, h.2]
    rfl
  · rw [if_neg h, mode]
    rw [Unconfirmed] at h
    revert h
    cases c.realRun <;> cases c.confirmRealRun <;> simp [RunMode.ofFlags]

theorem resolve_eq (compile : Pattern.Compiler) (c : Choices) : c.resolve compile =
    if c.Unconfirmed then .error .unconfirmedRun
    else match compile c.requirePrefix with
      | .error detail => .error (.invalidPattern c.requirePrefix detail)
      | .ok p => .ok (c.settingsWith p) := by
  rw [resolve, ofFlags_eq, GateSettings.withPrefix, NameRule.ofText]
  split_ifs
  · rfl
  · cases compile c.requirePrefix <;> rfl

theorem check_settingsWith (c : Choices) (p : Pattern) : (c.settingsWith p).check =
    if c.Ungated then .error .gateRequired else .ok () := by
  refine if_congr (and_congr mode_eq_real_iff ?_) rfl rfl
  rw [Option.isNone_iff_eq_none, policyGate_settingsWith, PolicyGateSettings.of?_eq_none_iff]

/-- The checks, in their order. -/
theorem settings_cases (compile : Pattern.Compiler) (c : Choices) :
    (c.Unconfirmed ∧ c.settings compile = .error .unconfirmedRun) ∨
      (¬ c.Unconfirmed ∧ ∃ detail, compile c.requirePrefix = .error detail ∧
        c.settings compile = .error (.invalidPattern c.requirePrefix detail)) ∨
      ¬ c.Unconfirmed ∧ ∃ p, compile c.requirePrefix = .ok p ∧
        (c.Ungated ∧ c.settings compile = .error .gateRequired ∨
          ¬ c.Ungated ∧ c.settings compile = .ok (c.settingsWith p)) := by
  rw [settings, resolve_eq]
  by_cases hflags : c.Unconfirmed
  · rw [if_pos hflags]
    exact .inl ⟨hflags, rfl⟩
  rw [if_neg hflags]
  rcases compile c.requirePrefix with detail | p
  · exact .inr (.inl ⟨hflags, detail, rfl, rfl⟩)
  · refine .inr (.inr ⟨hflags, p, rfl, ?_⟩)
    change _ ∧ ((c.settingsWith p).check >>= fun _ => pure (c.settingsWith p)) = _ ∨
      _ ∧ ((c.settingsWith p).check >>= fun _ => pure (c.settingsWith p)) = _
    rw [check_settingsWith]
    by_cases hgate : c.Ungated
    · rw [if_pos hgate]
      exact .inl ⟨hgate, rfl⟩
    · rw [if_neg hgate]
      exact .inr ⟨hgate, rfl⟩

theorem settings_eq_unconfirmed_iff :
    c.settings compile = .error .unconfirmedRun ↔ c.Unconfirmed := by
  rcases settings_cases compile c with ⟨h, heq⟩ | ⟨h, _, -, heq⟩ | ⟨h, p, -, ⟨-, heq⟩ | ⟨-, heq⟩⟩ <;>
    simp [heq, h]

theorem settings_eq_invalidPattern_iff : c.settings compile = .error (.invalidPattern t detail) ↔
    ¬ c.Unconfirmed ∧ c.requirePrefix = t ∧ compile c.requirePrefix = .error detail := by
  rcases settings_cases compile c with ⟨h, heq⟩ | ⟨h, _, hread, heq⟩ |
    ⟨h, p, hread, ⟨-, heq⟩ | ⟨-, heq⟩⟩ <;> simp [*]

theorem settings_eq_gateRequired_iff : c.settings compile = .error .gateRequired ↔
    ¬ c.Unconfirmed ∧ (∃ p, compile c.requirePrefix = .ok p) ∧ c.Ungated := by
  rcases settings_cases compile c with ⟨h, heq⟩ | ⟨h, _, hread, heq⟩ |
    ⟨h, p, hread, ⟨hgate, heq⟩ | ⟨hgate, heq⟩⟩ <;> simp [*]

/-- Settings come of choices that pass the checks, and only of these. -/
theorem settings_eq_ok_iff : c.settings compile = .ok s ↔ ¬ c.Unconfirmed ∧ ¬ c.Ungated ∧
    ∃ p, compile c.requirePrefix = .ok p ∧ c.settingsWith p = s := by
  rcases settings_cases compile c with ⟨h, heq⟩ | ⟨h, _, hread, heq⟩ |
    ⟨h, p, hread, ⟨hgate, heq⟩ | ⟨hgate, heq⟩⟩ <;> simp [*]

end Choices

/-! ### Arguments -/

/-- Whether a text is the one whose bytes are given to an option, or the default if none are given. -/
def IsText (args : List Bytes) (o : ValueOption) (default : Bytes) (t : String) : Prop :=
  (∀ v, Gives args o v → v = Text.encodeString t) ∧
    ((∀ v, ¬ Gives args o v) → Text.encodeString t = default)

/-- Whether a number is the one given to an option, or the default if none is given. -/
def IsNumber (args : List Bytes) (o : ValueOption) (default x : Float) : Prop :=
  (∀ v, Gives args o v → ∃ t, v = Text.encodeString t ∧ Decimal.readFloat? t.toList = some x) ∧
    ((∀ v, ¬ Gives args o v) → x = default)

section

variable {o : ValueOption} {v : Bytes} {d : String} {x y : Float}

theorem eq_encodeString_of_read (h : (Text.utf8? v).map Value.text = some (.text t)) :
    v = Text.encodeString t := by
  obtain ⟨_, hread, heq⟩ := Option.map_eq_some_iff.mp h
  cases heq
  exact Text.utf8?_eq_some_iff.mp hread

theorem isText_of_parse (h : parse env args = .ok c) (hread : ∀ v, o.read? v = (Text.utf8? v).map .text)
    (hvalue : value c o = .text t) (hdefault : value {} o = .text d) :
    IsText args o ((env.bytes? o).getD (Text.encodeString d)) t := by
  obtain ⟨hgiven, hnever⟩ := parse_value h o
  constructor
  · intro v hv
    have hv := hgiven v hv
    rw [hread, hvalue] at hv
    exact eq_encodeString_of_read hv
  · intro hnone
    have hfilled := hnever hnone
    rcases hv : env.bytes? o with _ | v
    · rw [hv, Filled, Option.elim_none, hvalue, hdefault, Value.text.injEq] at hfilled
      rw [hfilled, Option.getD_none]
    · rw [hv, Filled, Option.elim_some, hread, hvalue] at hfilled
      exact (eq_encodeString_of_read hfilled).symm

theorem isNumber_of_parse (h : parse env args = .ok c)
    (hread : ∀ v, o.read? v = ((Text.utf8? v).bind fun t => Decimal.readFloat? t.toList).map .number)
    (hvalue : value c o = .number x) (hdefault : value {} o = .number y) (henv : env.bytes? o = none) :
    IsNumber args o y x := by
  obtain ⟨hgiven, hnever⟩ := parse_value h o
  constructor
  · intro v hv
    have hv := hgiven v hv
    rw [hread, hvalue, Option.map_eq_some_iff] at hv
    obtain ⟨_, hx, heq⟩ := hv
    cases heq
    obtain ⟨t, ht, hx⟩ := Option.bind_eq_some_iff.mp hx
    exact ⟨t, Text.utf8?_eq_some_iff.mp ht, hx⟩
  · intro hnone
    have hfilled := hnever hnone
    rwa [henv, Filled, Option.elim_none, hvalue, hdefault, Value.number.injEq] at hfilled

end

/-- What is known of settings that come of arguments. -/
structure Settings.Follows (args : List Bytes) (s : Settings) : Prop where
  mode : s.mode = .real ↔
    Text.encodeString "--real-run" ∈ args ∧ Text.encodeString "--confirm-real-run" ∈ args
  gated : s.mode = .real → s.policyGate.isSome
  workspace : Text.Neat s.workspace
  gate : ∀ p, s.policyGate = some p → Text.Neat p.url ∧ 100000000 ≤ p.timeout.totalNanos
  slaHours : IsNumber args .slaHours 24.0 s.gates.slaHours
  minSuccess : IsNumber args .minSuccess 0.9 s.gates.minSuccess
  maxDrift : IsNumber args .maxDrift 0.1 s.gates.maxDrift
  minRepro : IsNumber args .minRepro 0.9 s.gates.minRepro
  defaultRevenueUsdc : IsNumber args .defaultRevenueUsdc 0.0 s.gates.defaultRevenueUsdc
  defaultTokenCostUsdc : IsNumber args .defaultTokenCostUsdc 0.0 s.gates.defaultTokenCostUsdc
  minMarginRate : IsNumber args .minMarginRate 0.0 s.gates.minMarginRate

theorem realRun_iff (h : parse env args = .ok c) :
    c.realRun = true ↔ Text.encodeString "--real-run" ∈ args :=
  parse_isOn h (w := .realRun) (by decide)

theorem confirmRealRun_iff (h : parse env args = .ok c) :
    c.confirmRealRun = true ↔ Text.encodeString "--confirm-real-run" ∈ args :=
  parse_isOn h (w := .confirmRealRun) (by decide)

theorem follows_of_settings (h : parse env args = .ok c) (hs : c.settings compile = .ok s) :
    s.Follows args := by
  obtain ⟨-, hgate, p, -, rfl⟩ := Choices.settings_eq_ok_iff.mp hs
  have hmode : c.mode = .real ↔ _ := Choices.mode_eq_real_iff
  refine ⟨?_, ?_, ?_, ?_, ?_, ?_, ?_, ?_, ?_, ?_, ?_⟩
  · exact hmode.trans (and_congr (realRun_iff h) (confirmRealRun_iff h))
  · intro hreal
    rw [← Option.ne_none_iff_isSome, c.policyGate_settingsWith p, Ne, PolicyGateSettings.of?_eq_none_iff]
    exact fun hblank => hgate ⟨hmode.mp hreal, hblank⟩
  · rw [c.workspace_settingsWith p]
    exact neat_normalWorkspace c.workspace
  · intro q hq
    rw [c.policyGate_settingsWith p] at hq
    exact PolicyGateSettings.neat_of?_eq_some hq
  all_goals exact isNumber_of_parse h (fun _ => rfl) rfl rfl rfl

/-- Arguments that are accepted lead to settings unless one of three checks fails, and the first one that
does is reported. Settings that they lead to are those that the arguments say. -/
theorem parse_settings (compile : Pattern.Compiler) (h : parse env args = .ok c) :
    let realRun := Text.encodeString "--real-run" ∈ args
    let confirmed := Text.encodeString "--confirm-real-run" ∈ args
    (IsText args .requirePrefix (Text.encodeString defaultPrefixPattern) c.requirePrefix ∧
      IsText args .policyGateUrl (env.policyGateUrl.getD []) c.policyGateUrl) ∧
    (c.settings compile = .error .unconfirmedRun ↔ realRun ∧ ¬ confirmed) ∧
    (∀ t detail, c.settings compile = .error (.invalidPattern t detail) ↔
      ¬ (realRun ∧ ¬ confirmed) ∧ c.requirePrefix = t ∧ compile c.requirePrefix = .error detail) ∧
    (c.settings compile = .error .gateRequired ↔
      ¬ (realRun ∧ ¬ confirmed) ∧ (∃ p, compile c.requirePrefix = .ok p) ∧
        (realRun ∧ confirmed) ∧ ∀ ch ∈ c.policyGateUrl.toList, Text.isBlank ch) ∧
    ((∃ s, c.settings compile = .ok s) ↔
      ¬ (realRun ∧ ¬ confirmed) ∧ (∃ p, compile c.requirePrefix = .ok p) ∧
        ¬ ((realRun ∧ confirmed) ∧ ∀ ch ∈ c.policyGateUrl.toList, Text.isBlank ch)) ∧
    ∀ s, c.settings compile = .ok s → s.Follows args := by
  intro realRun confirmed
  have hflags : c.Unconfirmed ↔ realRun ∧ ¬ confirmed := by
    rw [Choices.Unconfirmed, realRun_iff h, ← Bool.not_eq_true, confirmRealRun_iff h]
  have hgate : c.Ungated ↔ (realRun ∧ confirmed) ∧
      ∀ ch ∈ c.policyGateUrl.toList, Text.isBlank ch := by
    rw [Choices.Ungated, realRun_iff h, confirmRealRun_iff h]
  rw [← hflags, ← hgate]
  refine ⟨⟨?_, ?_⟩, Choices.settings_eq_unconfirmed_iff,
    fun _ _ => Choices.settings_eq_invalidPattern_iff, Choices.settings_eq_gateRequired_iff, ?_,
    fun _ => follows_of_settings h⟩
  · exact isText_of_parse h (d := defaultPrefixPattern) (fun _ => rfl) rfl rfl
  · exact isText_of_parse h (d := "") (fun _ => rfl) rfl rfl
  · simp only [Choices.settings_eq_ok_iff]
    exact ⟨fun ⟨_, hflags, hgate, p, hread, _⟩ => ⟨hflags, ⟨p, hread⟩, hgate⟩,
      fun ⟨hflags, ⟨p, hread⟩, hgate⟩ => ⟨_, hflags, hgate, p, hread, rfl⟩⟩

/-- Both flags, a threshold and the address of a gate lead to a real run with this threshold. -/
theorem parse_settings_confirmed : ∃ c s,
    parse {} (["--real-run", "--min-success=0.5", "--confirm-real-run", "--policy-gate-url", " g "].map
      Text.encodeString) = .ok c ∧ c.settings Pattern.compile = .ok s ∧ s.mode = .real ∧
        s.policyGate.isSome ∧ Decimal.readFloat? "0.5".toList = some s.gates.minSuccess := by
  obtain ⟨x, hx⟩ : ∃ x, Decimal.readFloat? "0.5".toList = some x := ⟨_, rfl⟩
  have hrule : ∃ p, Pattern.compile defaultPrefixPattern = .ok p := ⟨_, rfl⟩
  have hparse : parse {} (["--real-run", "--min-success=0.5", "--confirm-real-run",
      "--policy-gate-url", " g "].map Text.encodeString) =
        (Decimal.readFloat? "0.5".toList).elim (.error .help) fun x => .ok
          { realRun := true, confirmRealRun := true, policyGateUrl := " g "
            thresholds.minSuccess := x } := rfl
  rw [hx] at hparse
  obtain ⟨-, -, -, -, hok, hfollows⟩ := parse_settings Pattern.compile hparse
  obtain ⟨s, hs⟩ := hok.mpr
    ⟨by decide, hrule, fun hblank => absurd (hblank.2 'g' (by simp)) (by decide)⟩
  have hfollows := hfollows s hs
  have hmode : s.mode = .real := hfollows.mode.mpr (by decide)
  obtain ⟨t, ht, hnumber⟩ := hfollows.minSuccess.1 (Text.encodeString "0.5") (.inl (by decide))
  rw [← Text.encodeString_inj ht] at hnumber
  exact ⟨_, s, hparse, hs, hmode, hfollows.gated hmode, hnumber⟩

end ProposalReview
