/-!
The real number that a binary64 value stands for.

A finite value is a sign and `mantissa * 2 ^ exponent`, read off the bits; the exact arithmetic of
this library works on that pair and never on rounded values.
-/

namespace ProposalReview.Decimal

/-- A binary64 value by its meaning. -/
inductive Binary where
  | nan
  | infinite (negative : Bool)
  | finite (negative : Bool) (mantissa : Nat) (exponent : Int)
  deriving DecidableEq, Repr

/-- The meaning of a sign bit, an exponent field and a fraction field. -/
def Binary.ofFields (negative : Bool) (exponent fraction : Nat) : Binary :=
  if exponent = 2047 then (if fraction = 0 then .infinite negative else .nan)
  else if exponent = 0 then .finite negative fraction (-1074)
  else .finite negative (Nat.pow 2 52 + fraction) (Int.ofNat exponent - 1075)

/-- The meaning of a float. -/
def Binary.ofFloat (x : Float) : Binary :=
  let bits := x.toBits.toNat
  .ofFields (bits / Nat.pow 2 63 == 1) (bits / Nat.pow 2 52 % 2048) (bits % Nat.pow 2 52)

/-- A fraction of naturals; the denominators in use are positive. -/
structure Ratio where
  num : Nat
  den : Nat
  deriving DecidableEq, Repr

/-- The power `2 ^ exponent` as a fraction. -/
def Ratio.twoPow : Int → Ratio
  | .ofNat n => ⟨Nat.pow 2 n, 1⟩
  | .negSucc n => ⟨1, Nat.pow 2 (n + 1)⟩

/-- The power `10 ^ exponent` as a fraction. -/
def Ratio.tenPow : Int → Ratio
  | .ofNat n => ⟨Nat.pow 10 n, 1⟩
  | .negSucc n => ⟨1, Nat.pow 10 (n + 1)⟩

/-- The product of two fractions. -/
def Ratio.mul (a b : Ratio) : Ratio := ⟨a.num * b.num, a.den * b.den⟩

/-- A fraction times a natural. -/
def Ratio.scale (n : Nat) (a : Ratio) : Ratio := ⟨n * a.num, a.den⟩

/-- Which of two neighbours an exact half goes to. -/
inductive Tie where
  | toEven
  | up
  deriving DecidableEq, Repr

/-- Whether the half above `n` goes to `n + 1`. -/
def Tie.goesUp : Tie → Nat → Bool
  | .toEven, n => n % 2 == 1
  | .up, _ => true

/-- The natural nearest to a fraction. -/
def Ratio.round (tie : Tie) (a : Ratio) : Nat :=
  let low := a.num / a.den
  let rest := a.num % a.den
  if 2 * rest < a.den then low
  else if 2 * rest = a.den then (if tie.goesUp low then low + 1 else low)
  else low + 1

end ProposalReview.Decimal
