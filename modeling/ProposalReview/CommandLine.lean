import ProposalReview.Decimal.Numeral
import ProposalReview.Settings
/-!
The command line.

Arguments are bytes. Every option is long and takes one value, after an equals sign or as the next
argument; an argument that begins with a hyphen and goes on is never the value of the one before.
Switches take no value. Nothing may be given twice, and there are no other arguments. A value is checked
when the next option or switch is met, or when the arguments end; only paths need not be UTF-8. For two
options a variable of the environment stands in if they are not given.
-/

namespace ProposalReview.CommandLine

/-- The options that take a value. -/
inductive ValueOption where
  | inboxDir
  | appliedDir
  | demotedDir
  | incidentsDir
  | logDir
  | requirePrefix
  | slaHours
  | minSuccess
  | maxDrift
  | minRepro
  | defaultRevenueUsdc
  | defaultTokenCostUsdc
  | minMarginRate
  | workspaceId
  | policyGateUrl
  | policyGateTimeoutSec
  deriving DecidableEq, Repr

/-- The options that take no value. -/
inductive Switch where
  | realRun
  | confirmRealRun
  | seedSamples
  | verbose
  | help
  | version
  deriving DecidableEq, Repr

/-- What a long name stands for. -/
inductive Named where
  | value (o : ValueOption)
  | switch (s : Switch)

/-- The meaning of a long name. -/
def named? : String → Option Named
  | "inbox-dir" => some (.value .inboxDir)
  | "applied-dir" => some (.value .appliedDir)
  | "demoted-dir" => some (.value .demotedDir)
  | "incidents-dir" => some (.value .incidentsDir)
  | "log-dir" => some (.value .logDir)
  | "require-prefix" => some (.value .requirePrefix)
  | "sla-hours" => some (.value .slaHours)
  | "min-success" => some (.value .minSuccess)
  | "max-drift" => some (.value .maxDrift)
  | "min-repro" => some (.value .minRepro)
  | "default-revenue-usdc" => some (.value .defaultRevenueUsdc)
  | "default-token-cost-usdc" => some (.value .defaultTokenCostUsdc)
  | "min-margin-rate" => some (.value .minMarginRate)
  | "workspace-id" => some (.value .workspaceId)
  | "policy-gate-url" => some (.value .policyGateUrl)
  | "policy-gate-timeout-sec" => some (.value .policyGateTimeoutSec)
  | "real-run" => some (.switch .realRun)
  | "confirm-real-run" => some (.switch .confirmRealRun)
  | "seed-samples" => some (.switch .seedSamples)
  | "verbose" => some (.switch .verbose)
  | "help" => some (.switch .help)
  | "version" => some (.switch .version)
  | _ => none

/-- The switch that a letter stands for. -/
def switch? : Char → Option Switch
  | 'v' => some .verbose
  | 'h' => some .help
  | 'V' => some .version
  | _ => none

/-- Why the arguments do not lead to a run. -/
inductive Usage where
  | help
  | version
  | unknownArgument
  | invalidValue
  | valueValidation
  | argumentConflict
  | tooManyValues
  | invalidUtf8
  deriving DecidableEq, Repr

/-- The exit status: asking for help or the version is no failure. -/
def Usage.exitStatus : Usage → Nat
  | .help | .version => 0
  | _ => 2

/-- The arguments met so far. An option whose value has not been checked is pending, with its value
once that is there. -/
structure Progress where
  choices : Choices := {}
  options : List ValueOption := []
  switches : List Switch := []
  pending : Option (ValueOption × Option Bytes) := none
  /-- Whether the double hyphen was met, after which nothing is an option. -/
  ended : Bool := false

/-- A path option's value. -/
def pathValue (v : Bytes) : Except Usage Path :=
  if v.isEmpty then .error .invalidValue else .ok ⟨v⟩

/-- A text option's value. -/
def textValue (v : Bytes) : Except Usage String :=
  match Text.utf8? v with
  | some t => .ok t
  | none => .error .invalidUtf8

/-- A float option's value. -/
def floatValue (v : Bytes) : Except Usage Float :=
  match Text.utf8? v with
  | none => .error .invalidUtf8
  | some t =>
    match Decimal.readFloat? t.toList with
    | some x => .ok x
    | none => .error .valueValidation

/-- The choices with an option set to a value. -/
def assign (c : Choices) (v : Bytes) : ValueOption → Except Usage Choices
  | .inboxDir => (pathValue v).map fun p => { c with dirs.inbox := p }
  | .appliedDir => (pathValue v).map fun p => { c with dirs.applied := p }
  | .demotedDir => (pathValue v).map fun p => { c with dirs.demoted := p }
  | .incidentsDir => (pathValue v).map fun p => { c with dirs.incidents := p }
  | .logDir => (pathValue v).map fun p => { c with dirs.log := p }
  | .requirePrefix => (textValue v).map fun t => { c with requirePrefix := t }
  | .slaHours => (floatValue v).map fun x => { c with thresholds.slaHours := x }
  | .minSuccess => (floatValue v).map fun x => { c with thresholds.minSuccess := x }
  | .maxDrift => (floatValue v).map fun x => { c with thresholds.maxDrift := x }
  | .minRepro => (floatValue v).map fun x => { c with thresholds.minRepro := x }
  | .defaultRevenueUsdc => (floatValue v).map fun x => { c with thresholds.defaultRevenueUsdc := x }
  | .defaultTokenCostUsdc =>
    (floatValue v).map fun x => { c with thresholds.defaultTokenCostUsdc := x }
  | .minMarginRate => (floatValue v).map fun x => { c with thresholds.minMarginRate := x }
  | .workspaceId => (textValue v).map fun t => { c with workspace := t }
  | .policyGateUrl => (textValue v).map fun t => { c with policyGateUrl := t }
  | .policyGateTimeoutSec => (floatValue v).map fun x => { c with policyGateTimeout := x }

/-- Gives an option its value. -/
def Progress.give (s : Progress) (o : ValueOption) (v : Bytes) : Except Usage Progress :=
  if o ∈ s.options then .error .argumentConflict
  else (assign s.choices v o).map fun c => { s with choices := c, options := o :: s.options }

/-- Checks what is pending. -/
def Progress.settle (s : Progress) : Except Usage Progress :=
  match s.pending with
  | none => .ok s
  | some (_, none) => .error .invalidValue
  | some (o, some v) => { s with pending := none }.give o v

/-- The choices with a switch turned on. -/
def turnOn (c : Choices) : Switch → Choices
  | .realRun => { c with realRun := true }
  | .confirmRealRun => { c with confirmRealRun := true }
  | .seedSamples => { c with seedSamples := true }
  | _ => c

/-- Takes in a switch. -/
def Progress.flip (s : Progress) (w : Switch) : Except Usage Progress := do
  let s ← s.settle
  match w with
  | .help => throw .help
  | .version => throw .version
  | _ =>
    if w ∈ s.switches then throw .argumentConflict
    else pure { s with choices := turnOn s.choices w, switches := w :: s.switches }

/-- Takes in a long name and the value attached to it, if any. -/
def Progress.long (s : Progress) (name : Bytes) (attached : Option Bytes) :
    Except Usage Progress :=
  match (Text.utf8? name).bind named?, attached with
  | none, _ => .error .unknownArgument
  | some (.switch w), none => s.flip w
  | some (.switch _), some _ => .error .tooManyValues
  | some (.value o), none => s.settle.map fun s => { s with pending := some (o, none) }
  | some (.value o), some v => do
    let s ← s.settle
    s.give o v

/-- Takes in letters of switches. -/
def Progress.short (s : Progress) : List Char → Except Usage Progress
  | [] => .ok s
  | c :: cs =>
    match switch? c with
    | none => .error .unknownArgument
    | some w =>
      match s.flip w with
      | .ok s => s.short cs
      | .error e => .error e

/-- Takes in an argument that is no option: the value that is waited for, or one too many. -/
def Progress.plain (s : Progress) (arg : Bytes) : Except Usage Progress :=
  match s.pending with
  | some (o, none) => .ok { s with pending := some (o, some arg) }
  | _ => .error .unknownArgument

/-- The byte that begins an option. -/
def hyphen : UInt8 := 0x2d

/-- The byte that parts an option's name from its value. -/
def equalsSign : UInt8 := 0x3d

/-- Splits a long argument at its first equals sign. -/
def splitEquals (bs : Bytes) : Bytes × Option Bytes :=
  let name := bs.takeWhile (· != equalsSign)
  match bs.dropWhile (· != equalsSign) with
  | [] => (name, none)
  | _ :: v => (name, some v)

/-- Takes in one argument. -/
def Progress.step (s : Progress) (arg : Bytes) : Except Usage Progress :=
  if s.ended then .error .unknownArgument
  else if arg = [hyphen, hyphen] then .ok { s with ended := true }
  else if [hyphen, hyphen] <+: arg then
    let (name, v) := splitEquals (arg.drop 2)
    s.long name v
  else if [hyphen] <+: arg ∧ arg ≠ [hyphen] then s.short (Text.decode arg.tail)
  else s.plain arg

/-- The variables of the environment that stand in for options. -/
structure Environment where
  workspace : Option Bytes := none
  policyGateUrl : Option Bytes := none

/-- Gives an option the value of a variable, if there is one and the option has no value. -/
def Progress.fill (s : Progress) (o : ValueOption) : Option Bytes → Except Usage Progress
  | none => .ok s
  | some v => if o ∈ s.options then .ok s else s.give o v

/-- The choices after the environment has filled in for options that were not given. -/
def Progress.complete (s : Progress) (env : Environment) : Except Usage Choices := do
  let s ← s.fill .workspaceId env.workspace
  let s ← s.fill .policyGateUrl env.policyGateUrl
  pure s.choices

/-- The choices that the arguments and the environment amount to. -/
def parse (env : Environment) (args : List Bytes) : Except Usage Choices := do
  let s ← args.foldlM Progress.step {}
  let s ← s.settle
  s.complete env

/-- The version of the program. -/
def versionText : String := "promogate 0.1.0\n"

/-- How the program is used. -/
def helpText : String :=
  "Evaluate proposal files against approval, evidence, and KPI gates, then file each into the " ++
  "applied or demoted directory\n\nUsage: promogate [OPTIONS]\n\nOptions:\n" ++
  "      --inbox-dir <INBOX_DIR>              [default: promoted/inbox]\n" ++
  "      --applied-dir <APPLIED_DIR>          [default: promoted/applied]\n" ++
  "      --demoted-dir <DEMOTED_DIR>          [default: tmp/archive/demoted]\n" ++
  "      --incidents-dir <INCIDENTS_DIR>      [default: memory/incidents]\n" ++
  "      --log-dir <LOG_DIR>                  [default: tmp/export]\n" ++
  "      --real-run                           Perform real file moves\n" ++
  "      --confirm-real-run                   Mandatory second flag for --real-run\n" ++
  "      --seed-samples                       Write sample proposals into the inbox first\n" ++
  "      --require-prefix <REQUIRE_PREFIX>    Filename prefix regex gate " ++
    "[default: ^(PRJ|IDEA|LOG)-]\n" ++
  "      --sla-hours <SLA_HOURS>              [default: 24]\n" ++
  "      --min-success <MIN_SUCCESS>          [default: 0.9]\n" ++
  "      --max-drift <MAX_DRIFT>              [default: 0.1]\n" ++
  "      --min-repro <MIN_REPRO>              [default: 0.9]\n" ++
  "      --default-revenue-usdc <DEFAULT_REVENUE_USDC>\n" ++
  "                                           [default: 0]\n" ++
  "      --default-token-cost-usdc <DEFAULT_TOKEN_COST_USDC>\n" ++
  "                                           [default: 0]\n" ++
  "      --min-margin-rate <MIN_MARGIN_RATE>  Advisory threshold only (warning), 0.0-1.0, e.g. 0.2 " ++
    "means 20% [default: 0]\n" ++
  "      --workspace-id <WORKSPACE_ID>        [env: PIPELINE_WORKSPACE_ID=] [default: ws_dev]\n" ++
  "      --policy-gate-url <POLICY_GATE_URL>  Required for --real-run. Policy gate endpoint " ++
    "approving promote/demote [env: PIPELINE_POLICY_GATE_URL=] [default: ]\n" ++
  "      --policy-gate-timeout-sec <POLICY_GATE_TIMEOUT_SEC>\n" ++
  "                                           [default: 5]\n" ++
  "  -v, --verbose                            Debug logging on stderr\n" ++
  "  -h, --help                               Print help\n" ++
  "  -V, --version                            Print version\n"

end ProposalReview.CommandLine
