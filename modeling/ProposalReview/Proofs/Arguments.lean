import Mathlib
import ProposalReview.CommandLine
import ProposalReview.Proofs.Filing.Walk
/-!
What the arguments give to the options.

    --name=v        gives v to the option
    --name v        gives v to the option, unless v begins with a hyphen and goes on
    --name          turns a switch on
    -v, -vv         turns letters on

The arguments are gone through one by one, with at most one option waiting for its value or for its value
to be checked. In what was gone through so far every option that was given a value holds that value, or is
pending with it, and every other option is as it was at the start. So in arguments that are accepted each
option has the value that is written beside its own name, and is left alone if its name is not there.
-/

namespace ProposalReview.CommandLine

variable {s s' s₁ : Progress} {arg n v : Bytes} {o o' : ValueOption} {w : Switch} {c c' : Choices}
  {args done : List Bytes}

/-! ### Long names -/

/-- The long name of an option. -/
def ValueOption.name : ValueOption → String
  | .inboxDir => "inbox-dir"
  | .appliedDir => "applied-dir"
  | .demotedDir => "demoted-dir"
  | .incidentsDir => "incidents-dir"
  | .logDir => "log-dir"
  | .requirePrefix => "require-prefix"
  | .slaHours => "sla-hours"
  | .minSuccess => "min-success"
  | .maxDrift => "max-drift"
  | .minRepro => "min-repro"
  | .defaultRevenueUsdc => "default-revenue-usdc"
  | .defaultTokenCostUsdc => "default-token-cost-usdc"
  | .minMarginRate => "min-margin-rate"
  | .workspaceId => "workspace-id"
  | .policyGateUrl => "policy-gate-url"
  | .policyGateTimeoutSec => "policy-gate-timeout-sec"

/-- The long name of a switch. -/
def Switch.name : Switch → String
  | .realRun => "real-run"
  | .confirmRealRun => "confirm-real-run"
  | .seedSamples => "seed-samples"
  | .verbose => "verbose"
  | .help => "help"
  | .version => "version"

theorem named?_eq_value_iff {t : String} : named? t = some (.value o) ↔ t = o.name := by
  constructor
  · intro h
    unfold named? at h
    split at h <;> cases h <;> rfl
  · rintro rfl
    cases o <;> rfl

theorem named?_eq_switch_iff {t : String} : named? t = some (.switch w) ↔ t = w.name := by
  constructor
  · intro h
    unfold named? at h
    split at h <;> cases h <;> rfl
  · rintro rfl
    cases w <;> rfl

/-- The bytes of an option's long name. -/
def ValueOption.bytes (o : ValueOption) : Bytes := Text.encodeString o.name

/-- The bytes of a switch's long name. -/
def Switch.bytes (w : Switch) : Bytes := Text.encodeString w.name

theorem bind_named?_eq_value_iff : (Text.utf8? n).bind named? = some (.value o) ↔ n = o.bytes := by
  simp only [Option.bind_eq_some_iff, Text.utf8?_eq_some_iff, named?_eq_value_iff, exists_eq_right]
  rfl

theorem bind_named?_eq_switch_iff : (Text.utf8? n).bind named? = some (.switch w) ↔ n = w.bytes := by
  simp only [Option.bind_eq_some_iff, Text.utf8?_eq_some_iff, named?_eq_switch_iff, exists_eq_right]
  rfl

theorem ValueOption.bytes_injective (h : o.bytes = o'.bytes) : o = o' := by
  have hnamed := bind_named?_eq_value_iff.mpr h
  rw [bind_named?_eq_value_iff.mpr rfl] at hnamed
  cases hnamed
  rfl

theorem Switch.bytes_injective {w' : Switch} (h : w.bytes = w'.bytes) : w = w' := by
  have hnamed := bind_named?_eq_switch_iff.mpr h
  rw [bind_named?_eq_switch_iff.mpr rfl] at hnamed
  cases hnamed
  rfl

theorem Switch.bytes_ne (w : Switch) (o : ValueOption) : w.bytes ≠ o.bytes := by
  intro h
  have hnamed := bind_named?_eq_value_iff.mpr h
  rw [bind_named?_eq_switch_iff.mpr rfl] at hnamed
  cases hnamed

theorem ValueOption.bytes_ne_nil (o : ValueOption) : o.bytes ≠ [] := by
  cases o <;> decide

theorem Switch.bytes_ne_nil (w : Switch) : w.bytes ≠ [] := by
  cases w <;> decide

theorem ValueOption.not_mem_bytes (o : ValueOption) : equalsSign ∉ o.bytes := by
  cases o <;> decide

theorem Switch.not_mem_bytes (w : Switch) : equalsSign ∉ w.bytes := by
  cases w <;> decide

/-! ### Long arguments -/

theorem bne_of_not_mem (h : equalsSign ∉ n) : ∀ b ∈ n, (b != equalsSign) = true :=
  fun _ hb => bne_iff_ne.mpr (ne_of_mem_of_not_mem hb h)

theorem splitEquals_name (h : equalsSign ∉ n) : splitEquals n = (n, none) := by
  simp [splitEquals, List.takeWhile_eq_self_iff.mpr (bne_of_not_mem h),
    List.dropWhile_eq_nil_iff.mpr (bne_of_not_mem h)]

theorem splitEquals_value (h : equalsSign ∉ n) (v : Bytes) :
    splitEquals (n ++ equalsSign :: v) = (n, some v) := by
  simp [splitEquals, List.takeWhile_append_of_pos (bne_of_not_mem h),
    List.dropWhile_append_of_pos (bne_of_not_mem h)]

theorem eq_of_splitEquals {bs : Bytes} {value : Option Bytes} (h : splitEquals bs = (n, value)) :
    bs = value.elim n fun v => n ++ equalsSign :: v := by
  have hall := List.takeWhile_append_dropWhile (p := (· != equalsSign)) (l := bs)
  rw [splitEquals] at h
  split at h
  · next hdrop =>
    cases h
    rw [hdrop, List.append_nil] at hall
    exact hall.symm
  · next d rest hdrop =>
    cases h
    have hd : d = equalsSign := by
      have hhead := List.head?_dropWhile_not (· != equalsSign) bs
      rw [hdrop] at hhead
      simpa using hhead
    rw [hdrop, hd] at hall
    exact hall.symm

/-- A long argument's name and the value that is attached to it. -/
def long? (arg : Bytes) : Option (Bytes × Option Bytes) :=
  if [hyphen, hyphen] <+: arg then some (splitEquals (arg.drop 2)) else none

/-- The argument that is a long name. -/
def flag (n : Bytes) : Bytes := hyphen :: hyphen :: n

theorem long?_flag (n : Bytes) : long? (flag n) = some (splitEquals n) := by
  rw [long?, if_pos ⟨n, rfl⟩]
  rfl

theorem exists_of_long? {x : Bytes × Option Bytes} (h : long? arg = some x) :
    ∃ bs, arg = flag bs ∧ splitEquals bs = x := by
  rw [long?] at h
  split_ifs at h with hlong
  obtain ⟨bs, rfl⟩ := hlong
  exact ⟨bs, rfl, Option.some_inj.mp h⟩

/-- The argument that names an option. -/
def ValueOption.flag (o : ValueOption) : Bytes := CommandLine.flag o.bytes

/-- The argument that gives an option a value. -/
def ValueOption.spelled (o : ValueOption) (v : Bytes) : Bytes :=
  CommandLine.flag (o.bytes ++ equalsSign :: v)

/-- The argument that is a switch. -/
def Switch.flag (w : Switch) : Bytes := CommandLine.flag w.bytes

theorem ValueOption.eq_flag_iff : arg = o.flag ↔ long? arg = some (o.bytes, none) := by
  constructor
  · rintro rfl
    rw [flag, long?_flag, splitEquals_name o.not_mem_bytes]
  · intro h
    obtain ⟨bs, rfl, hsplit⟩ := exists_of_long? h
    rw [eq_of_splitEquals hsplit]
    rfl

theorem ValueOption.eq_spelled_iff : arg = o.spelled v ↔ long? arg = some (o.bytes, some v) := by
  constructor
  · rintro rfl
    rw [spelled, long?_flag, splitEquals_value o.not_mem_bytes]
  · intro h
    obtain ⟨bs, rfl, hsplit⟩ := exists_of_long? h
    rw [eq_of_splitEquals hsplit]
    rfl

theorem Switch.eq_flag_iff : arg = w.flag ↔ long? arg = some (w.bytes, none) := by
  constructor
  · rintro rfl
    rw [flag, long?_flag, splitEquals_name w.not_mem_bytes]
  · intro h
    obtain ⟨bs, rfl, hsplit⟩ := exists_of_long? h
    rw [eq_of_splitEquals hsplit]
    rfl

/-! ### One argument -/

theorem long_cases {value : Option Bytes} (h : s.long n value = .ok s') :
    (∃ w, n = Switch.bytes w ∧ value = none ∧ s.flip w = .ok s') ∨
      (∃ o s₁, n = ValueOption.bytes o ∧ value = none ∧ s.settle = .ok s₁ ∧
        s' = { s₁ with pending := some (o, none) }) ∨
      ∃ o v s₁, n = ValueOption.bytes o ∧ value = some v ∧ s.settle = .ok s₁ ∧ s₁.give o v = .ok s' := by
  rw [Progress.long.eq_def] at h
  split at h
  · cases h
  · next w hnamed => exact .inl ⟨w, bind_named?_eq_switch_iff.mp hnamed, rfl, h⟩
  · cases h
  · next o hnamed =>
    obtain ⟨s₁, hsettle, rfl⟩ := Except.ok_of_map h
    exact .inr (.inl ⟨o, s₁, bind_named?_eq_value_iff.mp hnamed, rfl, hsettle, rfl⟩)
  · next o v hnamed =>
    obtain ⟨s₁, hsettle, h⟩ := Except.ok_of_bind h
    exact .inr (.inr ⟨o, v, s₁, bind_named?_eq_value_iff.mp hnamed, rfl, hsettle, h⟩)

/-- What taking in an argument can do. -/
theorem step_cases (h : s.step arg = .ok s') : s.ended = false ∧
    ((arg = flag [] ∧ s' = { s with ended := true }) ∨
      (∃ w, arg = Switch.flag w ∧ s.flip w = .ok s') ∨
      (∃ o s₁, arg = ValueOption.flag o ∧ s.settle = .ok s₁ ∧
        s' = { s₁ with pending := some (o, none) }) ∨
      (∃ o v s₁, arg = ValueOption.spelled o v ∧ s.settle = .ok s₁ ∧ s₁.give o v = .ok s') ∨
      (long? arg = none ∧ ∃ cs, cs ≠ [] ∧ s.short cs = .ok s') ∨
      (long? arg = none ∧ ∃ o, s.pending = some (o, none) ∧
        s' = { s with pending := some (o, some arg) })) := by
  rw [Progress.step] at h
  split_ifs at h with hended hend hlong hshort
  · exact ⟨by simpa using hended, .inl ⟨hend, (Except.ok.inj h).symm⟩⟩
  · refine ⟨by simpa using hended, .inr ?_⟩
    rcases hsplit : splitEquals (arg.drop 2) with ⟨name, value⟩
    have harg : long? arg = some (name, value) := by rw [long?, if_pos hlong, hsplit]
    rw [hsplit] at h
    rcases long_cases h with ⟨w, rfl, rfl, hflip⟩ | ⟨o, s₁, rfl, rfl, hsettle, rfl⟩ |
      ⟨o, v, s₁, rfl, rfl, hsettle, hgive⟩
    · exact .inl ⟨w, Switch.eq_flag_iff.mpr harg, hflip⟩
    · exact .inr (.inl ⟨o, s₁, ValueOption.eq_flag_iff.mpr harg, hsettle, rfl⟩)
    · exact .inr (.inr (.inl ⟨o, v, s₁, ValueOption.eq_spelled_iff.mpr harg, hsettle, hgive⟩))
  · refine ⟨by simpa using hended, .inr (.inr (.inr (.inr (.inl ⟨if_neg hlong, _, ?_, h⟩))))⟩
    obtain ⟨⟨bs, rfl⟩, hne⟩ := hshort
    exact Text.decode_ne_nil fun hnil => hne (congrArg _ hnil)
  · refine ⟨by simpa using hended, .inr (.inr (.inr (.inr (.inr ⟨if_neg hlong, ?_⟩))))⟩
    rw [Progress.plain] at h
    split at h
    · next o hpending => exact ⟨o, hpending, (Except.ok.inj h).symm⟩
    · cases h

/-! ### Values -/

/-- What an option can be set to. -/
inductive Value where
  | path (p : Path)
  | text (t : String)
  | number (x : Float)

/-- The value of an option among the choices. -/
def value (c : Choices) : ValueOption → Value
  | .inboxDir => .path c.dirs.inbox
  | .appliedDir => .path c.dirs.applied
  | .demotedDir => .path c.dirs.demoted
  | .incidentsDir => .path c.dirs.incidents
  | .logDir => .path c.dirs.log
  | .requirePrefix => .text c.requirePrefix
  | .slaHours => .number c.thresholds.slaHours
  | .minSuccess => .number c.thresholds.minSuccess
  | .maxDrift => .number c.thresholds.maxDrift
  | .minRepro => .number c.thresholds.minRepro
  | .defaultRevenueUsdc => .number c.thresholds.defaultRevenueUsdc
  | .defaultTokenCostUsdc => .number c.thresholds.defaultTokenCostUsdc
  | .minMarginRate => .number c.thresholds.minMarginRate
  | .workspaceId => .text c.workspace
  | .policyGateUrl => .text c.policyGateUrl
  | .policyGateTimeoutSec => .number c.policyGateTimeout

/-- The value that bytes stand for, if the option takes them. -/
def ValueOption.read? (v : Bytes) : ValueOption → Option Value
  | .inboxDir | .appliedDir | .demotedDir | .incidentsDir | .logDir =>
    if v.isEmpty then none else some (.path ⟨v⟩)
  | .requirePrefix | .workspaceId | .policyGateUrl => (Text.utf8? v).map .text
  | _ => ((Text.utf8? v).bind fun t => Decimal.readFloat? t.toList).map .number

/-- The switches that are choices. -/
def Switch.chosen : List Switch := [.realRun, .confirmRealRun, .seedSamples]

/-- Whether a switch is on among the choices. -/
def isOn (c : Choices) : Switch → Prop
  | .realRun => c.realRun
  | .confirmRealRun => c.confirmRealRun
  | .seedSamples => c.seedSamples
  | _ => False

theorem pathValue_ok {p : Path} (h : pathValue v = .ok p) :
    (if v.isEmpty then none else some (Value.path ⟨v⟩)) = some (.path p) := by
  rw [pathValue] at h
  split_ifs at h with hempty
  rw [if_neg hempty, ← Except.ok.inj h]

theorem textValue_ok {t : String} (h : textValue v = .ok t) : Text.utf8? v = some t := by
  rw [textValue] at h
  split at h
  · next hread => rw [hread, Except.ok.inj h]
  · cases h

theorem floatValue_ok {x : Float} (h : floatValue v = .ok x) :
    ((Text.utf8? v).bind fun t => Decimal.readFloat? t.toList) = some x := by
  rw [floatValue] at h
  split at h
  · cases h
  · next t ht =>
    split at h
    · next hread => rw [ht, Option.bind_some, hread, Except.ok.inj h]
    · cases h

/-- Setting an option gives it the value that the text stands for, and changes nothing else. -/
theorem assign_ok (h : assign c v o = .ok c') : o.read? v = some (value c' o) ∧
    (∀ o' ≠ o, value c' o' = value c o') ∧ ∀ w, isOn c' w ↔ isOn c w := by
  cases o
  case inboxDir | appliedDir | demotedDir | incidentsDir | logDir =>
    obtain ⟨p, hp, rfl⟩ := Except.ok_of_map h
    refine ⟨pathValue_ok hp, fun o' ho' => ?_, fun w => by cases w <;> rfl⟩
    cases o' <;> first | rfl | exact absurd rfl ho'
  case requirePrefix | workspaceId | policyGateUrl =>
    obtain ⟨t, ht, rfl⟩ := Except.ok_of_map h
    refine ⟨congrArg (Option.map Value.text) (textValue_ok ht), fun o' ho' => ?_,
      fun w => by cases w <;> rfl⟩
    cases o' <;> first | rfl | exact absurd rfl ho'
  all_goals
    obtain ⟨x, hx, rfl⟩ := Except.ok_of_map h
    refine ⟨congrArg (Option.map Value.number) (floatValue_ok hx), fun o' ho' => ?_, fun w => by cases w <;> rfl⟩
    cases o' <;> first | rfl | exact absurd rfl ho'

theorem value_turnOn (c : Choices) (w : Switch) (o : ValueOption) :
    value (turnOn c w) o = value c o := by
  cases w <;> rfl

theorem isOn_turnOn {w' : Switch} (hw' : w' ∈ Switch.chosen) :
    isOn (turnOn c w) w' ↔ w' = w ∨ isOn c w' := by
  cases w' <;> cases w <;> simp_all [Switch.chosen, isOn, turnOn]

theorem give_ok (h : s.give o v = .ok s') : o ∉ s.options ∧ ∃ c, assign s.choices v o = .ok c ∧
    s' = { s with choices := c, options := o :: s.options } := by
  rw [Progress.give] at h
  split_ifs at h with hgiven
  obtain ⟨c, hc, rfl⟩ := Except.ok_of_map h
  exact ⟨hgiven, c, hc, rfl⟩

theorem flip_ok (h : s.flip w = .ok s') : ∃ s₁, s.settle = .ok s₁ ∧
    s' = { s₁ with choices := turnOn s₁.choices w, switches := w :: s₁.switches } := by
  obtain ⟨s₁, hsettle, h⟩ := Except.ok_of_bind h
  refine ⟨s₁, hsettle, ?_⟩
  split at h
  · cases h
  · cases h
  · split_ifs at h
    exact (Except.ok.inj h).symm

/-- No letter stands for a choice. -/
theorem turnOn_of_letter {letter : Char} (h : switch? letter = some w) : turnOn c w = c := by
  unfold switch? at h
  split at h <;> cases h <;> rfl

/-! ### What is given -/

/-- Whether the arguments give an option a value. -/
def Gives (args : List Bytes) (o : ValueOption) (v : Bytes) : Prop :=
  o.spelled v ∈ args ∨ [o.flag, v] <:+: args

theorem pair_infix_concat {x y : Bytes} : [x, y] <:+: done ++ [arg] ↔
    [x, y] <:+: done ∨ done.getLast? = some x ∧ arg = y := by
  rw [List.infix_concat_iff, List.suffix_concat_iff, List.getLast?_eq_some_iff, or_comm]
  refine or_congr_right ⟨?_, ?_⟩
  · rintro (hnil | ⟨t, ht, before, rfl⟩)
    · cases hnil
    · have hpair : [x] ++ [y] = t ++ [arg] := ht
      obtain ⟨rfl, hlast⟩ := List.append_inj' hpair rfl
      exact ⟨⟨before, rfl⟩, (List.singleton_injective hlast).symm⟩
  · rintro ⟨⟨before, rfl⟩, rfl⟩
    exact .inr ⟨[x], rfl, before, rfl⟩

theorem gives_concat : Gives (done ++ [arg]) o v ↔
    Gives done o v ∨ arg = o.spelled v ∨ done.getLast? = some o.flag ∧ arg = v := by
  rw [Gives, Gives, pair_infix_concat, List.mem_append, List.mem_singleton, eq_comm (a := arg)]
  tauto

theorem Switch.flag_inj {w' : Switch} : w.flag = w'.flag ↔ w = w' := by
  refine ⟨fun h => ?_, congrArg _⟩
  have hlong := Switch.eq_flag_iff.mp h
  rw [Switch.eq_flag_iff.mp rfl, Option.some_inj, Prod.mk.injEq] at hlong
  exact Switch.bytes_injective hlong.1

/-- What is known of the progress through arguments. -/
structure Reached (done : List Bytes) (s : Progress) : Prop where
  given : ∀ {o v}, Gives done o v →
    o ∈ s.options ∧ o.read? v = some (value s.choices o) ∨ s.pending = some (o, some v)
  source : ∀ {o}, o ∈ s.options → ∃ v, Gives done o v
  answered : ∀ {o v}, s.pending = some (o, some v) → Gives done o v
  untouched : ∀ {o}, o ∉ s.options → value s.choices o = value {} o
  awaiting : ∀ {o}, s.pending = some (o, none) ↔ done.getLast? = some (ValueOption.flag o)
  switched : ∀ {w}, w ∈ Switch.chosen → (isOn s.choices w ↔ w.flag ∈ done)

/-- Whether the arguments have ended while an option waits for its value. -/
def Stuck (s : Progress) : Prop := s.ended ∧ ∃ o, s.pending = some (o, none)

theorem reached_nil : Reached [] {} where
  given h := by simp [Gives] at h
  source h := by simp at h
  answered h := by simp at h
  untouched _ := rfl
  awaiting := by simp
  switched h := by
    simp only [Switch.chosen, List.mem_cons, List.not_mem_nil, or_false] at h
    rcases h with rfl | rfl | rfl <;> simp [isOn]

namespace Reached

/-- To check what is pending leaves nothing pending, and what is known stays known. -/
theorem settle (h : Reached done s) (hs : s.settle = .ok s₁) :
    Reached done s₁ ∧ s₁.pending = none := by
  rw [Progress.settle] at hs
  split at hs
  · next hnone =>
    obtain rfl := Except.ok.inj hs
    exact ⟨h, hnone⟩
  · cases hs
  · next o v hpending =>
    obtain ⟨hnew, c, hassign, rfl⟩ := give_ok hs
    obtain ⟨hread, hothers, hon⟩ := assign_ok hassign
    refine ⟨⟨?_, ?_, ?_, ?_, ?_, ?_⟩, rfl⟩
    · intro o' v' hgives
      rcases h.given hgives with ⟨hmem, hread'⟩ | hwaiting
      · have hne : o' ≠ o := by
          rintro rfl
          exact hnew hmem
        exact .inl ⟨List.mem_cons_of_mem _ hmem, by rw [hothers o' hne, hread']⟩
      · rw [hpending] at hwaiting
        cases hwaiting
        exact .inl ⟨List.mem_cons_self, hread⟩
    · intro o' hmem
      rcases List.mem_cons.mp hmem with rfl | hmem
      · exact ⟨v, h.answered hpending⟩
      · exact h.source hmem
    · intro o' v' hnone
      cases hnone
    · intro o' hmem
      rw [List.mem_cons, not_or] at hmem
      rw [hothers o' hmem.1, h.untouched hmem.2]
    · intro o'
      rw [← h.awaiting, hpending]
      simp
    · intro w hw
      rw [hon, h.switched hw]

/-- One more argument that is no switch. If it gives an option a value or is the value that is waited for,
that is pending now; if it names an option, that is waiting for its value. -/
theorem concat (h : Reached done s) {p : Option (ValueOption × Option Bytes)}
    (hgiven : ∀ {o v}, p = some (o, some v) ↔ s.pending = some (o, some v) ∨
      arg = ValueOption.spelled o v ∨ s.pending = some (o, none) ∧ arg = v)
    (hawaiting : ∀ {o}, p = some (o, none) ↔ arg = ValueOption.flag o)
    (hw : ∀ w, arg ≠ Switch.flag w) : Reached (done ++ [arg]) { s with pending := p } where
  given hgives := by
    rw [gives_concat, ← h.awaiting] at hgives
    rcases hgives with hgives | hnew
    · exact (h.given hgives).imp_right fun hold => hgiven.mpr (.inl hold)
    · exact .inr (hgiven.mpr (.inr hnew))
  source hmem := (h.source hmem).imp fun _ hgives => gives_concat.mpr (.inl hgives)
  answered hp := by
    rw [gives_concat, ← h.awaiting]
    exact (hgiven.mp hp).imp_left h.answered
  untouched := h.untouched
  awaiting := by
    intro o
    rw [List.getLast?_concat, Option.some_inj]
    exact hawaiting
  switched hchosen := by
    rw [h.switched hchosen, List.mem_append, List.mem_singleton]
    exact ⟨.inl, fun hmem => hmem.resolve_right (hw _).symm⟩

/-- One more argument that is a switch, where nothing is pending. -/
theorem concat_switch (h : Reached done s) (hnone : s.pending = none) (w : Switch) :
    Reached (done ++ [Switch.flag w])
      { s with choices := turnOn s.choices w, switches := w :: s.switches } where
  given hgives := by
    rw [gives_concat, ← h.awaiting, hnone] at hgives
    rcases hgives with hgives | hspelled | ⟨hwaiting, -⟩
    · rw [value_turnOn]
      exact h.given hgives
    · rw [ValueOption.eq_spelled_iff, Switch.eq_flag_iff.mp rfl] at hspelled
      simp at hspelled
    · cases hwaiting
  source hmem := (h.source hmem).imp fun _ hgives => gives_concat.mpr (.inl hgives)
  answered hp := absurd (hnone.symm.trans hp) (by simp)
  untouched hmem := (value_turnOn _ _ _).trans (h.untouched hmem)
  awaiting := by
    intro o
    rw [List.getLast?_concat, Option.some_inj, ValueOption.eq_flag_iff, Switch.eq_flag_iff.mp rfl]
    simp [hnone, w.bytes_ne o]
  switched hchosen := by
    rw [isOn_turnOn hchosen, h.switched hchosen, List.mem_append, List.mem_singleton,
      Switch.flag_inj, or_comm]

/-- One more argument that is short or ends the options, where no option waits for its value. -/
theorem concat_other (h : Reached done s) (hwaits : ∀ o, s.pending ≠ some (o, none))
    (hlong : long? arg = none ∨ arg = flag []) : Reached (done ++ [arg]) s := by
  have hname : ∀ {n value}, n ≠ [] → long? arg ≠ some (n, value) := by
    rintro n value hn heq
    rcases hlong with hnone | rfl
    · rw [hnone] at heq
      cases heq
    · cases heq
      exact hn rfl
  refine h.concat (p := s.pending) ?_ ?_ ?_
  · intro o v
    have hspelled : arg ≠ ValueOption.spelled o v :=
      fun heq => hname o.bytes_ne_nil (ValueOption.eq_spelled_iff.mp heq)
    simp [hspelled, hwaits]
  · intro o
    exact iff_of_false (hwaits o) fun heq => hname o.bytes_ne_nil (ValueOption.eq_flag_iff.mp heq)
  · exact fun w heq => hname w.bytes_ne_nil (Switch.eq_flag_iff.mp heq)

/-- One more argument that names an option, where nothing is pending. -/
theorem concat_flag (h : Reached done s) (hnone : s.pending = none) (o : ValueOption) :
    Reached (done ++ [o.flag]) { s with pending := some (o, none) } := by
  have hlong := ValueOption.eq_flag_iff.mp (rfl : o.flag = o.flag)
  refine h.concat ?_ ?_ ?_
  · intro o' v
    rw [ValueOption.eq_spelled_iff, hlong, hnone]
    simp
  · intro o'
    rw [ValueOption.eq_flag_iff, hlong]
    simp only [Option.some_inj, Prod.mk.injEq, and_true]
    exact ⟨congrArg _, ValueOption.bytes_injective⟩
  · intro w
    rw [Ne, Switch.eq_flag_iff, hlong]
    simp [(w.bytes_ne o).symm]

/-- One more argument that gives an option a value, where nothing is pending. -/
theorem concat_spelled (h : Reached done s) (hnone : s.pending = none) (o : ValueOption) (v : Bytes) :
    Reached (done ++ [o.spelled v]) { s with pending := some (o, some v) } := by
  have hlong := ValueOption.eq_spelled_iff.mp (rfl : o.spelled v = o.spelled v)
  refine h.concat ?_ ?_ ?_
  · intro o' v'
    rw [ValueOption.eq_spelled_iff, hlong, hnone]
    simp only [Option.some_inj, Prod.mk.injEq, reduceCtorEq, false_and, or_false, false_or]
    exact and_congr_left' ⟨congrArg _, ValueOption.bytes_injective⟩
  · intro o'
    rw [ValueOption.eq_flag_iff, hlong]
    simp
  · intro w
    rw [Ne, Switch.eq_flag_iff, hlong]
    simp

/-- One more argument that is the value that is waited for. -/
theorem concat_plain (h : Reached done s) (hwaits : s.pending = some (o, none))
    (hlong : long? arg = none) : Reached (done ++ [arg]) { s with pending := some (o, some arg) } := by
  refine h.concat ?_ ?_ ?_
  · intro o' v
    rw [ValueOption.eq_spelled_iff, hlong, hwaits]
    simp
  · intro o'
    rw [ValueOption.eq_flag_iff, hlong]
    simp
  · intro w
    rw [Ne, Switch.eq_flag_iff, hlong]
    simp

/-- What is known depends on the choices, the options given and what is pending. -/
theorem congr (h : Reached done s) (hchoices : s'.choices = s.choices) (hoptions : s'.options = s.options)
    (hpending : s'.pending = s.pending) : Reached done s' := by
  obtain ⟨choices, options, switches, pending, ended⟩ := s'
  simp only at hchoices hoptions hpending
  subst hchoices hoptions hpending
  exact ⟨h.given, h.source, h.answered, h.untouched, h.awaiting, h.switched⟩

/-- Letters check what is pending and turn on what is no choice. -/
theorem short {cs : List Char} (h : Reached done s) (hs : s.short cs = .ok s')
    (hcs : cs = [] → s.pending = none) : Reached done s' ∧ s'.pending = none := by
  induction cs generalizing s with
  | nil =>
    obtain rfl := Except.ok.inj hs
    exact ⟨h, hcs rfl⟩
  | cons c cs ih =>
    rw [Progress.short] at hs
    split at hs
    · cases hs
    · next w hletter =>
      split at hs
      · next s₂ hflip =>
        obtain ⟨s₁, hsettle, rfl⟩ := flip_ok hflip
        obtain ⟨hreached, hnone⟩ := h.settle hsettle
        have hflipped : Reached done
            { s₁ with choices := turnOn s₁.choices w, switches := w :: s₁.switches } :=
          hreached.congr (turnOn_of_letter hletter) rfl rfl
        exact ih hflipped hs fun _ => hnone
      · cases hs

theorem step (h : Reached done s) (hs : s.step arg = .ok s') : Stuck s' ∨ Reached (done ++ [arg]) s' := by
  obtain ⟨-, ⟨rfl, rfl⟩ | ⟨w, rfl, hflip⟩ | ⟨o, s₁, rfl, hsettle, rfl⟩ |
    ⟨o, v, s₁, rfl, hsettle, hgive⟩ | ⟨hlong, cs, hcs, hshort⟩ | ⟨hlong, o, hwaits, rfl⟩⟩ := step_cases hs
  · by_cases hwaits : ∃ o, s.pending = some (o, none)
    · exact .inl ⟨rfl, hwaits⟩
    · exact .inr ((h.concat_other (not_exists.mp hwaits) (.inr rfl)).congr rfl rfl rfl)
  · obtain ⟨s₁, hsettle, rfl⟩ := flip_ok hflip
    obtain ⟨hreached, hnone⟩ := h.settle hsettle
    exact .inr (hreached.concat_switch hnone w)
  · obtain ⟨hreached, hnone⟩ := h.settle hsettle
    exact .inr (hreached.concat_flag hnone o)
  · obtain ⟨hreached, hnone⟩ := h.settle hsettle
    refine .inr ((hreached.concat_spelled hnone o v).settle ?_).1
    rw [← hgive, Progress.settle, ← hnone]
  · obtain ⟨hreached, hnone⟩ := h.short hshort fun hnil => absurd hnil hcs
    exact .inr (hreached.concat_other (by simp [hnone]) (.inl hlong))
  · exact .inr (h.concat_plain hwaits hlong)

/-- What is known after some arguments is known after more of them. -/
theorem run (h : Reached done s) (hrun : args.foldlM Progress.step s = .ok s') :
    Stuck s' ∨ Reached (done ++ args) s' := by
  induction args generalizing done s with
  | nil =>
    obtain rfl := Except.ok.inj hrun
    exact .inr (by rwa [List.append_nil])
  | cons arg rest ih =>
    rw [List.foldlM_cons] at hrun
    obtain ⟨s₁, hstep, hrun⟩ := Except.ok_of_bind hrun
    rcases h.step hstep with hstuck | hreached
    · cases rest with
      | nil =>
        obtain rfl := Except.ok.inj hrun
        exact .inl hstuck
      | cons b rest =>
        -- nothing is taken in any more
        rw [List.foldlM_cons] at hrun
        obtain ⟨_, hnext, -⟩ := Except.ok_of_bind hrun
        have hgoes := (step_cases hnext).1
        rw [hstuck.1] at hgoes
        cases hgoes
    · have hrest := ih hreached hrun
      rwa [List.append_assoc, List.singleton_append] at hrest

end Reached

/-! ### The environment -/

/-- The variable that stands in for an option. -/
def Environment.bytes? (env : Environment) : ValueOption → Option Bytes
  | .workspaceId => env.workspace
  | .policyGateUrl => env.policyGateUrl
  | _ => none

/-- Whether an option is set as a variable says, or left as it was if there is none. -/
def Filled (v? : Option Bytes) (o : ValueOption) (c c' : Choices) : Prop :=
  v?.elim (value c' o = value c o) fun v => o.read? v = some (value c' o)

/-- A variable sets its option, unless that has a value, and no other. -/
theorem fill_ok {v? : Option Bytes} (h : s.fill o v? = .ok s') :
    (∀ o', o' ∈ s.options ∨ o' ≠ o →
      (o' ∈ s'.options ↔ o' ∈ s.options) ∧ value s'.choices o' = value s.choices o') ∧
    (o ∉ s.options → Filled v? o s.choices s'.choices) ∧
    ∀ w, isOn s'.choices w ↔ isOn s.choices w := by
  rw [Progress.fill.eq_def] at h
  split at h
  · obtain rfl := Except.ok.inj h
    exact ⟨fun _ _ => ⟨.rfl, rfl⟩, fun _ => rfl, fun _ => .rfl⟩
  · split_ifs at h with hgiven
    · obtain rfl := Except.ok.inj h
      exact ⟨fun _ _ => ⟨.rfl, rfl⟩, fun hnew => absurd hgiven hnew, fun _ => .rfl⟩
    · obtain ⟨-, c, hassign, rfl⟩ := give_ok h
      obtain ⟨hread, hothers, hon⟩ := assign_ok hassign
      refine ⟨fun o' ho' => ?_, fun _ => hread, hon⟩
      have hne : o' ≠ o := ho'.elim (fun hmem heq => hgiven (heq ▸ hmem)) id
      exact ⟨by simp [hne], hothers o' hne⟩

/-- The environment sets the options that it has a variable for and that have no value. -/
theorem complete_ok {env : Environment} (h : s.complete env = .ok c) :
    (∀ o ∈ s.options, value c o = value s.choices o) ∧
    (∀ o ∉ s.options, Filled (env.bytes? o) o s.choices c) ∧
    ∀ w, isOn c w ↔ isOn s.choices w := by
  obtain ⟨s₁, hfirst, h⟩ := Except.ok_of_bind h
  obtain ⟨s₂, hsecond, h⟩ := Except.ok_of_bind h
  obtain rfl := Except.ok.inj h
  obtain ⟨hkept₁, hset₁, hon₁⟩ := fill_ok hfirst
  obtain ⟨hkept₂, hset₂, hon₂⟩ := fill_ok hsecond
  refine ⟨fun o ho => ?_, fun o ho => ?_, fun w => (hon₂ w).trans (hon₁ w)⟩
  · obtain ⟨hmem, hvalue⟩ := hkept₁ o (.inl ho)
    rw [(hkept₂ o (.inl (hmem.mpr ho))).2, hvalue]
  · cases o
    case workspaceId =>
      have hkept := (hkept₂ .workspaceId (.inr (by simp))).2
      have hset := hset₁ ho
      rw [Filled] at hset ⊢
      rwa [hkept]
    case policyGateUrl =>
      obtain ⟨hmem, hkept⟩ := hkept₁ .policyGateUrl (.inr (by simp))
      have hset := hset₂ (mt hmem.mp ho)
      rw [Filled] at hset ⊢
      rwa [← hkept]
    all_goals
      refine (hkept₂ _ (.inr ?_)).2.trans (hkept₁ _ (.inr ?_)).2
      all_goals simp

/-! ### Arguments that are accepted -/

variable {env : Environment}

theorem parse_reached (h : parse env args = .ok c) :
    ∃ s, Reached args s ∧ s.pending = none ∧ s.complete env = .ok c := by
  obtain ⟨s, hrun, h⟩ := Except.ok_of_bind h
  obtain ⟨s₁, hsettle, h⟩ := Except.ok_of_bind h
  rcases reached_nil.run hrun with ⟨-, o, hwaits⟩ | hreached
  · rw [Progress.settle, hwaits] at hsettle
    cases hsettle
  · obtain ⟨hsettled, hnone⟩ := hreached.settle hsettle
    exact ⟨s₁, hsettled, hnone, h⟩

/-- In arguments that are accepted an option has the value that it is given, or else what the environment
says or its default. -/
theorem parse_value (h : parse env args = .ok c) (o : ValueOption) :
    (∀ v, Gives args o v → o.read? v = some (value c o)) ∧
      ((∀ v, ¬ Gives args o v) → Filled (env.bytes? o) o {} c) := by
  obtain ⟨s, hreached, hnone, hcomplete⟩ := parse_reached h
  obtain ⟨hkept, hset, -⟩ := complete_ok hcomplete
  constructor
  · intro v hgives
    rcases hreached.given hgives with ⟨hmem, hread⟩ | hpending
    · rw [hkept o hmem, hread]
    · rw [hnone] at hpending
      cases hpending
  · intro hnever
    have hmem : o ∉ s.options := fun hmem => (hreached.source hmem).elim hnever
    have hfollows := hset o hmem
    rwa [Filled, hreached.untouched hmem] at hfollows

/-- In arguments that are accepted a switch is on just when it is among them. -/
theorem parse_isOn (h : parse env args = .ok c) (hw : w ∈ Switch.chosen) : isOn c w ↔ w.flag ∈ args := by
  obtain ⟨s, hreached, -, hcomplete⟩ := parse_reached h
  exact ((complete_ok hcomplete).2.2 w).trans (hreached.switched hw)

end ProposalReview.CommandLine
