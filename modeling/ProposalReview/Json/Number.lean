import ProposalReview.Decimal.Numeral
import ProposalReview.Json.Fault
import ProposalReview.Json.Value
/-!
Reading a JSON number.

An integer of 64 bits is kept exactly. Any other number is a float: up to 64 bits of its digits are
collected, further digits only move the exponent, and the result is scaled by a power of ten in
floating point.
-/

namespace ProposalReview.Json

/-- The greatest collected value of the digits. -/
def digitLimit : Nat := Nat.pow 2 64 - 1

/-- The greatest exponent that is read digit by digit. -/
def exponentLimit : Nat := Nat.pow 2 31 - 1

/-- The digits of a number as far as they are collected: their value, how many more integer digits
there were, and what follows. -/
def collect (value : Nat) : List Char → Nat × Nat × List Char
  | [] => (value, 0, [])
  | c :: cs =>
    if c.isDigit then
      let next := value * 10 + Decimal.digitValue c
      if digitLimit < next then
        (value, (c :: cs).takeWhile Char.isDigit |>.length, (c :: cs).dropWhile Char.isDigit)
      else collect next cs
    else (value, 0, c :: cs)

/-- Collects fraction digits: the value, how many were collected, and what follows all of them. -/
def collectFraction (value count : Nat) : List Char → Nat × Nat × List Char
  | [] => (value, count, [])
  | c :: cs =>
    if c.isDigit then
      let next := value * 10 + Decimal.digitValue c
      if digitLimit < next then (value, count, (c :: cs).dropWhile Char.isDigit)
      else collectFraction next (count + 1) cs
    else (value, count, c :: cs)

/-- Collects exponent digits; none if they pass the limit, with what follows the digit that did. -/
def collectExponent (value : Nat) : List Char → Option Nat × List Char
  | [] => (some value, [])
  | c :: cs =>
    if c.isDigit then
      let next := value * 10 + Decimal.digitValue c
      if exponentLimit < next then (none, cs) else collectExponent next cs
    else (some value, c :: cs)

/-- The float `10 ^ n`. -/
def tenTo (n : Nat) : Float := Float.ofScientific 1 false n

/-- Divides by `10 ^ n`, in steps of `10 ^ 308`; three steps bring every collected value to zero. -/
def scaleDown : Nat → Float → Nat → Float
  | 0, x, _ => x
  | steps + 1, x, n =>
    if n ≤ 308 then x / tenTo n
    else if x == 0.0 then x
    else scaleDown steps (x / tenTo 308) (n - 308)

/-- The float `value * 10 ^ exponent`; none if it is out of range. -/
def scaled? (value : Nat) (exponent : Int) : Option Float :=
  let x := Float.ofNat value
  match exponent with
  | .negSucc n => some (scaleDown 5 x (n + 1))
  | .ofNat n =>
    if n ≤ 308 then
      let y := x * tenTo n
      if y.isInf then none else some y
    else if x == 0.0 then some x else none

/-- A float with its sign. -/
def signedFloat (negative : Bool) (x : Float) : Json := .float (if negative then -x else x)

/-- The float made of a sign, collected digits and an exponent. -/
def finishFloat (negative : Bool) (value : Nat) (exponent : Int) (cs : List Char) :
    Except Fault (Json × List Char) :=
  match scaled? value exponent with
  | some x => .ok (signedFloat negative x, cs)
  | none => .error (.here .numberOutOfRange cs)

/-- Reads what follows the letter of an exponent. -/
def readExponent (negative : Bool) (value : Nat) (exponent : Int) (cs : List Char) :
    Except Fault (Json × List Char) :=
  let (down, rest) := Decimal.takeSign cs
  match rest with
  | [] => .error (.here .endOfValue [])
  | c :: _ =>
    if c.isDigit then
      match collectExponent 0 rest with
      | (some n, after) =>
        finishFloat negative value (if down then exponent - n else exponent + n) after
      | (none, after) =>
        if value ≠ 0 ∧ ¬ down then .error (.here .numberOutOfRange after)
        else .ok (signedFloat negative 0.0, after.dropWhile Char.isDigit)
    else .error (.next .invalidNumber rest)

/-- Reads an optional exponent. -/
def readScale (negative : Bool) (value : Nat) (exponent : Int) (cs : List Char) :
    Except Fault (Json × List Char) :=
  match cs with
  | 'e' :: rest => readExponent negative value exponent rest
  | 'E' :: rest => readExponent negative value exponent rest
  | _ => finishFloat negative value exponent cs

/-- Reads what follows a point. -/
def readFraction (negative : Bool) (value : Nat) (exponent : Int) (cs : List Char) :
    Except Fault (Json × List Char) :=
  match cs with
  | [] => .error (.here .endOfValue [])
  | c :: _ =>
    if c.isDigit then
      let (value', count, after) := collectFraction value 0 cs
      readScale negative value' (exponent - count) after
    else .error (.next .invalidNumber cs)

/-- An integer without point or exponent: a float if it is minus zero or has over 64 bits. -/
def wholeNumber (negative : Bool) (value : Nat) : Json :=
  if negative then
    if value = 0 ∨ Nat.pow 2 63 < value then signedFloat true (Float.ofNat value) else .int (-value)
  else .int value

/-- Reads what follows the integer digits, given how many of them were not collected. -/
def readTail (negative : Bool) (value more : Nat) (cs : List Char) :
    Except Fault (Json × List Char) :=
  match cs with
  | '.' :: rest => readFraction negative value more rest
  | 'e' :: rest => readExponent negative value more rest
  | 'E' :: rest => readExponent negative value more rest
  | _ => if more = 0 then .ok (wholeNumber negative value, cs) else finishFloat negative value more cs

/-- Reads a number after its sign. -/
def readNumber (negative : Bool) (cs : List Char) : Except Fault (Json × List Char) :=
  match cs with
  | [] => .error (.here .endOfValue [])
  | c :: rest =>
    if c = '0' then
      match rest with
      | d :: _ => if d.isDigit then .error (.next .invalidNumber rest) else readTail negative 0 0 rest
      | [] => readTail negative 0 0 []
    else if c.isDigit then
      let (value, more, after) := collect 0 cs
      readTail negative value more after
    else .error (.next .invalidNumber cs)

end ProposalReview.Json
