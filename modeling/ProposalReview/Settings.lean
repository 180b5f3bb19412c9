import ProposalReview.Decimal.Binary
import ProposalReview.Filing.Path
import ProposalReview.Pattern.Search
import ProposalReview.Text.Blank
/-!
The settings of a run, and what can be wrong with them.

Settings are checked before anything else happens: a real run needs a second flag, the rule for file
names must be a pattern, and a real run needs a policy gate, in this order.
-/

namespace ProposalReview

/-- What is wrong with the settings. -/
inductive SettingsError where
  | unconfirmedRun
  | gateRequired
  | invalidPattern (pattern detail : String)
  deriving DecidableEq, Repr

namespace SettingsError

/-- The code of an error. -/
def code : SettingsError → String
  | .unconfirmedRun => "real_run_requires_confirm_flag"
  | .gateRequired => "policy_gate_required_for_real_run"
  | .invalidPattern _ _ => "invalid_prefix_pattern"

/-- What to do about an error. -/
def hint : SettingsError → String
  | .unconfirmedRun => "Use both --real-run and --confirm-real-run"
  | .gateRequired => "Set --policy-gate-url (or PIPELINE_POLICY_GATE_URL) for real-run"
  | .invalidPattern _ detail => "Fix --require-prefix: " ++ detail

/-- A code point in base sixteen, in braces. -/
def braced (n : Nat) : List Char :=
  ['\\', 'u', '\x7b'] ++ Nat.toDigits 16 n ++ ['\x7d']

/-- A character between quotes for display; one that is not shown is written by its code point. -/
def quoteChar (c : Char) : List Char :=
  if c = '\x00' then ['\\', '0']
  else if c = '\t' then ['\\', 't']
  else if c = '\n' then ['\\', 'n']
  else if c = '\r' then ['\\', 'r']
  else if c = '\x22' then ['\\', '\x22']
  else if c = '\\' then ['\\', '\\']
  else if Text.isHidden c then braced c.toNat
  else [c]

/-- A text between quotes for display. -/
def quoted (s : String) : String :=
  String.ofList ('\x22' :: (s.toList.flatMap quoteChar ++ ['\x22']))

/-- An error in words. -/
def message : SettingsError → String
  | .unconfirmedRun => "--real-run was given without --confirm-real-run"
  | .gateRequired => "a policy gate URL is required for a real run"
  | .invalidPattern p detail => "invalid filename prefix pattern " ++ quoted p ++ ": " ++ detail

/-- The exit status for an error. -/
def exitStatus : SettingsError → Nat
  | .gateRequired => 4
  | _ => 2

end SettingsError

/-- Whether a run may move files and ask the policy gate. -/
inductive RunMode where
  | dryRun
  | real
  deriving DecidableEq, Repr

/-- The mode that the two flags give. -/
def RunMode.ofFlags : Bool → Bool → Except SettingsError RunMode
  | true, true => .ok .real
  | true, false => .error .unconfirmedRun
  | false, _ => .ok .dryRun

/-- Whether nothing may be moved. -/
def RunMode.isDryRun : RunMode → Bool
  | .dryRun => true
  | .real => false

/-- The directories of a run. -/
structure Directories where
  inbox : Path
  applied : Path
  demoted : Path
  incidents : Path
  log : Path
  deriving DecidableEq, Repr

/-- The directories of a run that names none. -/
def Directories.standard : Directories where
  inbox := .ofString "promoted/inbox"
  applied := .ofString "promoted/applied"
  demoted := .ofString "tmp/archive/demoted"
  incidents := .ofString "memory/incidents"
  log := .ofString "tmp/export"

/-- The rule for file names, as given and as read. -/
structure NameRule where
  text : String
  pattern : Pattern
  deriving Repr

/-- Reads a rule for file names. -/
def NameRule.ofText (compile : Pattern.Compiler) (text : String) : Except SettingsError NameRule :=
  match compile text with
  | .ok p => .ok ⟨text, p⟩
  | .error detail => .error (.invalidPattern text detail)

/-- Whether a file name satisfies the rule: the leftmost match starts the name. -/
def NameRule.accepts (r : NameRule) (name : String) : Bool := r.pattern.matchesStart name

/-- The thresholds and defaults of the gates. -/
structure Thresholds where
  slaHours : Float := 24.0
  minSuccess : Float := 0.9
  maxDrift : Float := 0.1
  minRepro : Float := 0.9
  defaultRevenueUsdc : Float := 0.0
  defaultTokenCostUsdc : Float := 0.0
  /-- Below it a margin rate is warned of; it never demotes. -/
  minMarginRate : Float := 0.0

/-- The rule for names that is used unless another is given. -/
def defaultPrefixPattern : String := "^(PRJ|IDEA|LOG)-"

/-- The settings of the gates. -/
structure GateSettings extends Thresholds where
  nameRule : NameRule

/-- The settings of the gates with a rule for names, and all else as when nothing is chosen. -/
def GateSettings.withPrefix (compile : Pattern.Compiler) (text : String) :
    Except SettingsError GateSettings :=
  (NameRule.ofText compile text).map fun rule => { nameRule := rule }

/-! ### The policy gate -/

/-- A span of time. -/
structure Span where
  seconds : Nat
  nanos : Nat
  deriving DecidableEq, Repr

/-- All nanoseconds of a span. -/
def Span.totalNanos (s : Span) : Nat := s.seconds * 1000000000 + s.nanos

/-- The span of a number of nanoseconds. -/
def Span.ofNanos (n : Nat) : Span := ⟨n / 1000000000, n % 1000000000⟩

/-- The shortest deadline, a tenth of a second. -/
def Span.least : Span := ⟨0, 100000000⟩

/-- The longest deadline. -/
def Span.greatest : Span := ⟨Nat.pow 2 64 - 1, 999999999⟩

/-- A span, or another one if it is shorter than that. -/
def Span.atLeast (s least : Span) : Span := if s.totalNanos < least.totalNanos then least else s

/-- The span of a number of seconds, to the nearest nanosecond, an exact half going to the even one;
none for what is negative, is not a number, or passes 64 bits. -/
def Span.ofSeconds? (x : Float) : Option Span :=
  if x < 0.0 ∨ 18446744073709551616.0 ≤ x then none
  else match Decimal.Binary.ofFloat x with
    | .finite _ m q => some (.ofNanos (((Decimal.Ratio.twoPow q).scale (m * 1000000000)).round .toEven))
    | _ => none

/-- The deadline for a number of seconds: never below the least, and the greatest if there is no span
of so many seconds. -/
def deadline (x : Float) : Span :=
  if x.isNaN || x ≤ 0.0 then .least
  else ((Span.ofSeconds? x).getD .greatest).atLeast .least

/-- Where the policy gate is, and how long to wait for it. -/
structure PolicyGateSettings where
  url : String
  timeout : Span
  deriving DecidableEq, Repr

/-- The settings of a gate; none for a blank address. -/
def PolicyGateSettings.of? (url : String) (seconds : Float) : Option PolicyGateSettings :=
  let url := Text.trimmed url
  if url.isEmpty then none else some ⟨url, deadline seconds⟩

/-- The workspace of a run that names none. -/
def defaultWorkspace : String := "ws_dev"

/-- A workspace identifier without outer blanks; a blank one is the default. -/
def normalWorkspace (raw : String) : String :=
  let s := Text.trimmed raw
  if s.isEmpty then defaultWorkspace else s

/-- Everything that a run needs to know. -/
structure Settings where
  dirs : Directories
  gates : GateSettings
  mode : RunMode
  workspace : String
  policyGate : Option PolicyGateSettings
  seedSamples : Bool

/-- Checks that a real run has a policy gate. -/
def Settings.check (s : Settings) : Except SettingsError Unit :=
  if s.mode = .real ∧ s.policyGate.isNone then .error .gateRequired else .ok ()

/-- Settings as a user gives them. -/
structure Choices where
  dirs : Directories := .standard
  realRun : Bool := false
  confirmRealRun : Bool := false
  seedSamples : Bool := false
  requirePrefix : String := defaultPrefixPattern
  thresholds : Thresholds := {}
  workspace : String := defaultWorkspace
  policyGateUrl : String := ""
  policyGateTimeout : Float := 5.0

/-- The settings before the check for a gate. -/
def Choices.resolve (compile : Pattern.Compiler) (c : Choices) : Except SettingsError Settings := do
  let mode ← RunMode.ofFlags c.realRun c.confirmRealRun
  let base ← GateSettings.withPrefix compile c.requirePrefix
  pure
    { dirs := c.dirs
      gates :=
        { base with
          slaHours := c.thresholds.slaHours
          minSuccess := c.thresholds.minSuccess
          maxDrift := c.thresholds.maxDrift
          minRepro := c.thresholds.minRepro
          defaultRevenueUsdc := c.thresholds.defaultRevenueUsdc
          defaultTokenCostUsdc := c.thresholds.defaultTokenCostUsdc
          minMarginRate := c.thresholds.minMarginRate }
      mode
      workspace := normalWorkspace c.workspace
      policyGate := PolicyGateSettings.of? c.policyGateUrl c.policyGateTimeout
      seedSamples := c.seedSamples }

/-- The settings that choices amount to. -/
def Choices.settings (compile : Pattern.Compiler) (c : Choices) : Except SettingsError Settings := do
  let s ← c.resolve compile
  s.check
  pure s

end ProposalReview
