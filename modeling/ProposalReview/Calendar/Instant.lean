import ProposalReview.Decimal.Written
/-!
Instants and how they are written.

An instant is a count of seconds since 1970 began in UTC and of nanoseconds within the second. A run has
one instant, that of its start; its artifacts are named in local time, and what they say is in UTC. Dates
follow the Gregorian calendar in both directions. To find the date of a day, days are counted from
the first of March of the year zero, so that a leap day ends its year, its four years and its four
centuries.
-/

namespace ProposalReview

/-- A point in time. The nanoseconds are below a thousand million. -/
structure Instant where
  seconds : Int
  nanos : Nat
  deriving DecidableEq, Repr

/-- A day of the calendar. -/
structure Date where
  year : Int
  month : Nat
  day : Nat
  deriving DecidableEq, Repr

namespace Date

/-- The date of the day that begins a number of days after 1970. -/
def ofDays (days : Int) : Date :=
  let z := days + 719468
  let era := z / 146097
  let dayOfEra := (z % 146097).toNat
  let century := min (dayOfEra / 36524) 3
  let dayOfCentury := dayOfEra - century * 36524
  let quad := dayOfCentury / 1461
  let dayOfQuad := dayOfCentury - quad * 1461
  let yearOfQuad := min (dayOfQuad / 365) 3
  let dayOfYear := dayOfQuad - yearOfQuad * 365
  let shifted := (5 * dayOfYear + 2) / 153
  let day := dayOfYear - (153 * shifted + 2) / 5 + 1
  let month := if shifted < 10 then shifted + 3 else shifted - 9
  let year := era * 400 + (century * 100 + quad * 4 + yearOfQuad : Nat)
  ⟨if month ≤ 2 then year + 1 else year, month, day⟩

/-- A year in four digits; with a sign if it needs more or is negative. -/
def yearDigits (year : Int) : List Char :=
  match year with
  | .ofNat n => if n ≤ 9999 then Decimal.padded 4 n else '+' :: Decimal.natDigits n
  | .negSucc n => '-' :: Decimal.padded 4 (n + 1)

end Date

namespace Instant

/-- The date in UTC. -/
def date (t : Instant) : Date := Date.ofDays (t.seconds / 86400)

/-- The second of the day in UTC. -/
def secondOfDay (t : Instant) : Nat := (t.seconds % 86400).toNat

/-- The hour, the minute and the second, two digits each, with a mark between them. -/
def clockDigits (mark : List Char) (t : Instant) : List Char :=
  let s := t.secondOfDay
  Decimal.padded 2 (s / 3600) ++ mark ++ Decimal.padded 2 (s / 60 % 60) ++ mark
    ++ Decimal.padded 2 (s % 60)

/-- The year, the month and the day, with a mark between them. -/
def dateDigits (mark : List Char) (t : Instant) : List Char :=
  let d := t.date
  Date.yearDigits d.year ++ mark ++ Decimal.padded 2 d.month ++ mark ++ Decimal.padded 2 d.day

/-- The stamp of a time: date, hyphen, time of day. -/
def stampChars (t : Instant) : List Char := t.dateDigits [] ++ '-' :: t.clockDigits []

/-- The stamp of a time. -/
def stamp (t : Instant) : String := String.ofList t.stampChars

/-- The instant with microseconds and the offset of UTC. -/
def timeUtcChars (t : Instant) : List Char :=
  t.dateDigits ['-'] ++ 'T' :: t.clockDigits [':'] ++ '.' :: Decimal.padded 6 (t.nanos / 1000)
    ++ ['+', '0', '0', ':', '0', '0']

/-- The instant with microseconds and the offset of UTC. -/
def timeUtc (t : Instant) : String := String.ofList t.timeUtcChars

/-- The instant a number of seconds later. -/
def plus (t : Instant) (seconds : Int) : Instant := { t with seconds := t.seconds + seconds }

/-- All nanoseconds since 1970. -/
def totalNanos (t : Instant) : Int := t.seconds * 1000000000 + t.nanos

/-- The whole milliseconds from one instant to another, rounded toward zero. -/
def millisSince (later earlier : Instant) : Int :=
  (later.totalNanos - earlier.totalNanos).tdiv 1000000

/-- The hours from one instant to another. -/
def hoursSince (later earlier : Instant) : Float :=
  Float.ofInt (millisSince later earlier) / 3600000.0

end Instant

/-- The clock of a run: the instant of its start, and how many seconds local time is ahead of UTC at
that instant. -/
structure RunClock extends Instant where
  offset : Int
  deriving DecidableEq, Repr

namespace RunClock

/-- The clock where local time is UTC. -/
def utc (t : Instant) : RunClock := { t with offset := 0 }

/-- The stamp that names artifacts, in local time. -/
def stamp (c : RunClock) : String := (c.toInstant.plus c.offset).stamp

end RunClock

end ProposalReview
