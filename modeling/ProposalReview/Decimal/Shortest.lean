import ProposalReview.Decimal.Binary
/-!
The fewest decimal digits that read back as a given binary64 value.

The reals that round to `m * 2 ^ q` form an interval, its ends included when `m` is even. The
coarsest decimal grid with a point in it gives the number of digits, and on that grid the point
nearest to the value is taken.
-/

namespace ProposalReview.Decimal

/-- The decimal number `digits * 10 ^ exponent`. -/
structure Digits where
  digits : Nat
  exponent : Int
  deriving DecidableEq, Repr

/-- The interval of reals that round to a value, in quarters of its unit in the last place. -/
structure Interval where
  low : Nat
  value : Nat
  high : Nat
  closed : Bool

/-- The interval of the positive value `m * 2 ^ q`, in units of `2 ^ (q - 2)`. The gap below a
power of two is half as wide as the one above, but for the least normal value. -/
def Interval.around (m : Nat) (q : Int) : Interval where
  low := if m = Nat.pow 2 52 ∧ q ≠ -1074 then 4 * m - 1 else 4 * m - 2
  value := 4 * m
  high := 4 * m + 2
  closed := m % 2 == 0

/-- Whether the point `c / unit` lies in the interval, for a unit given as a fraction. -/
def Interval.holds (i : Interval) (unit : Ratio) (c : Nat) : Bool :=
  let point := c * unit.den
  if i.closed then decide (i.low * unit.num ≤ point) && decide (point ≤ i.high * unit.num)
  else decide (i.low * unit.num < point) && decide (point < i.high * unit.num)

/-- The grid point nearest to the value among its two neighbours, if one is in the interval. -/
def Interval.nearest? (i : Interval) (tie : Tie) (unit : Ratio) : Option Nat :=
  let num := i.value * unit.num
  let below := num / unit.den
  let above := below + 1
  let best := Ratio.round tie ⟨num, unit.den⟩
  match i.holds unit below, i.holds unit above with
  | true, true => some best
  | true, false => some below
  | false, true => some above
  | false, false => none

/-- Searches the grids `10 ^ p`, `10 ^ (p - 1)`, … for a point in the interval. -/
def Interval.search (i : Interval) (tie : Tie) (q : Int) : Nat → Int → Digits
  | 0, _ => ⟨0, 0⟩
  | fuel + 1, p =>
    match i.nearest? tie ((Ratio.twoPow (q - 2)).mul (Ratio.tenPow (-p))) with
    | some d => ⟨d, p⟩
    | none => i.search tie q fuel (p - 1)

/-- The shortest digits of the positive value `m * 2 ^ q`. The first grid tried is coarser than
the value, and the grid of seventeen digits always has a point in the interval. -/
def shortest (tie : Tie) (m : Nat) (q : Int) : Digits :=
  (Interval.around m q).search tie q 40 ((Int.ofNat m.log2 + 1 + q) * 30103 / 100000 + 1)

end ProposalReview.Decimal
