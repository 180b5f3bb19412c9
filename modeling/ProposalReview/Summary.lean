import ProposalReview.Gates
/-!
The summary of a run: counts, economics and margin warnings over its records.

Sums start from negative zero, which adding leaves every other value as it is.
-/

namespace ProposalReview

/-- How many records there are of each kind. -/
structure Counts where
  total : Nat
  promote : Nat
  demote : Nat
  hold : Nat
  /-- Records with a warning. -/
  warn : Nat
  deriving DecidableEq, Repr

/-- The amounts of a run. -/
structure Economics where
  totalRevenueUsdc : Float
  totalTokenCostUsdc : Float
  totalNetMarginUsdc : Float
  /-- The mean of the margin rates that are defined. -/
  avgMarginRate : Option Float
  minMarginRateAdvisory : Float
  deriving DecidableEq

/-- What is reported about a run. -/
structure Summary where
  timeUtc : String
  dryRun : Bool
  counts : Counts
  economics : Economics
  /-- The base names of the files with a low margin rate. -/
  marginFiles : List String
  decisions : List Record

namespace Summary

/-- The sum of a list of floats, from left to right. -/
def sum (xs : List Float) : Float := xs.foldl (· + ·) (-0.0)

/-- The mean of a list of floats; none for an empty list. -/
def mean? (xs : List Float) : Option Float :=
  if xs.isEmpty then none else some (sum xs / Float.ofNat xs.length)

/-- The number of records with an action. -/
def countAction (a : Action) (rs : List Record) : Nat := rs.countP fun r => r.decision.action == a

/-- The counts of records. -/
def countsOf (rs : List Record) : Counts where
  total := rs.length
  promote := countAction .promote rs
  demote := countAction .demote rs
  hold := countAction .hold rs
  warn := rs.countP fun r => !r.decision.warnings.isEmpty

/-- The economics of records, for a threshold of the margin rate. -/
def economicsOf (minMarginRate : Float) (rs : List Record) : Economics :=
  let revenue := sum (rs.map fun r => r.decision.kpi.revenueUsdc.getD 0.0)
  let cost := sum (rs.map fun r => r.decision.kpi.tokenCostUsdc.getD 0.0)
  { totalRevenueUsdc := revenue
    totalTokenCostUsdc := cost
    totalNetMarginUsdc := revenue - cost
    avgMarginRate := mean? (rs.filterMap fun r => r.decision.kpi.marginRate)
    minMarginRateAdvisory := minMarginRate }

/-- The base names of the files with a low margin rate. -/
def marginFilesOf (rs : List Record) : List String :=
  (rs.filter fun r => r.decision.hasWarning marginWarning).map fun r => r.decision.fileName

/-- The summary of records. -/
def ofRecords (timeUtc : String) (dryRun : Bool) (minMarginRate : Float) (rs : List Record) :
    Summary where
  timeUtc := timeUtc
  dryRun := dryRun
  counts := countsOf rs
  economics := economicsOf minMarginRate rs
  marginFiles := marginFilesOf rs
  decisions := rs

/-- A count as JSON. -/
def natJson (n : Nat) : Json := .int (Int.ofNat n)

/-- A summary as JSON. -/
def toJson (s : Summary) : Json :=
  .object [("time_utc", .string s.timeUtc), ("dry_run", .bool s.dryRun),
    ("counts", .object [("total", natJson s.counts.total), ("promote", natJson s.counts.promote),
      ("demote", natJson s.counts.demote), ("hold", natJson s.counts.hold),
      ("warn", natJson s.counts.warn)]),
    ("economics", .object [("total_revenue_usdc", .float s.economics.totalRevenueUsdc),
      ("total_token_cost_usdc", .float s.economics.totalTokenCostUsdc),
      ("total_net_margin_usdc", .float s.economics.totalNetMarginUsdc),
      ("avg_margin_rate", Json.ofOption Json.float s.economics.avgMarginRate),
      ("min_margin_rate_advisory", .float s.economics.minMarginRateAdvisory)]),
    ("margin_warnings", .object [("count", natJson s.marginFiles.length),
      ("files", Json.strings s.marginFiles)]),
    ("decisions", .array (s.decisions.map Record.toJson))]

/-- The text of a summary. -/
def text (s : Summary) : String := s.toJson.pretty

end Summary

end ProposalReview
