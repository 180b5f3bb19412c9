/-!
Reading a float from its decimal text.

A numeral is an optional sign and either digits with an optional point and exponent, at least one
digit before the exponent, or one of the words `inf`, `infinity` and `nan` in any case. Its value is
the binary64 value nearest to what it says.
-/

namespace ProposalReview.Decimal

/-- The value of a digit. -/
def digitValue (c : Char) : Nat := c.toNat - '0'.toNat

/-- The natural that a list of digits denotes. -/
def ofDigits (ds : List Char) : Nat := ds.foldl (fun n c => n * 10 + digitValue c) 0

/-- The longest run of digits at the start, and what follows it. -/
def spanDigits (cs : List Char) : List Char × List Char :=
  (cs.takeWhile Char.isDigit, cs.dropWhile Char.isDigit)

/-- An optional sign: whether it is a minus, and what follows. -/
def takeSign : List Char → Bool × List Char
  | '-' :: cs => (true, cs)
  | '+' :: cs => (false, cs)
  | cs => (false, cs)

/-- An exponent that takes up the whole text: nothing, or `e` with a signed number. -/
def exponent? : List Char → Option Int
  | [] => some 0
  | c :: cs =>
    if c = 'e' ∨ c = 'E' then
      let (negative, rest) := takeSign cs
      let (ds, after) := spanDigits rest
      if ds.isEmpty ∨ ¬ after.isEmpty then none
      else some (if negative then -Int.ofNat (ofDigits ds) else Int.ofNat (ofDigits ds))
    else none

/-- The digits after an optional point, and what follows them. -/
def takeFraction : List Char → List Char × List Char
  | '.' :: cs => spanDigits cs
  | cs => ([], cs)

/-- The float nearest to `m * 10 ^ e`. Beyond the range of finite values the result is known from
the number of digits alone, so no huge power is ever formed. -/
def nearestFloat (m : Nat) (e : Int) : Float :=
  let size := Int.ofNat (Nat.toDigits 10 m).length + e
  if m = 0 ∨ size < -400 then 0.0
  else if 400 < size then 1.0 / 0.0
  else match e with
    | .ofNat n => Float.ofScientific m false n
    | .negSucc n => Float.ofScientific m true (n + 1)

/-- The value of an unsigned numeral. -/
def magnitude? (cs : List Char) : Option Float :=
  let word := String.ofList (cs.map Char.toLower)
  if word = "inf" ∨ word = "infinity" then some (1.0 / 0.0)
  else if word = "nan" then some (0.0 / 0.0)
  else
    let (whole, rest) := spanDigits cs
    let (fraction, after) := takeFraction rest
    if whole.isEmpty ∧ fraction.isEmpty then none
    else (exponent? after).map fun e =>
      nearestFloat (ofDigits (whole ++ fraction)) (e - Int.ofNat fraction.length)

/-- The value of a numeral, if the text is one. -/
def readFloat? (cs : List Char) : Option Float :=
  let (negative, rest) := takeSign cs
  (magnitude? rest).map fun x => if negative then -x else x

end ProposalReview.Decimal
