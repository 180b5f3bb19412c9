import ProposalReview.Decimal.Shortest
/-!
How floats are written: with the shortest digits that read back, or with a fixed number of places.

A style says which decimal exponents are written positionally and how an exponent is written. A
positional number always shows a point.
-/

namespace ProposalReview.Decimal

/-- The decimal digits of a natural. -/
def natDigits (n : Nat) : List Char := Nat.toDigits 10 n

/-- An integer in decimal. -/
def intDigits : Int → List Char
  | .ofNat n => natDigits n
  | .negSucc n => '-' :: natDigits (n + 1)

/-- A natural padded with zeros to a width. -/
def padded (width n : Nat) : List Char :=
  let ds := natDigits n
  List.replicate (width - ds.length) '0' ++ ds

/-- How shortest digits are laid out. -/
structure Style where
  /-- Which neighbour an exact half goes to. -/
  tie : Tie
  /-- The least exponent that is written positionally. -/
  least : Int
  /-- The greatest exponent that is written positionally. -/
  greatest : Int
  /-- Whether a positive exponent has a plus sign. -/
  plus : Bool

/-- Digits with a point after the first `n`; both sides of the point are shown. -/
def withPoint (ds : List Char) : Int → List Char
  | .ofNat n =>
    if ds.length ≤ n then ds ++ List.replicate (n - ds.length) '0' ++ ['.', '0']
    else if n = 0 then '0' :: '.' :: ds
    else ds.take n ++ '.' :: ds.drop n
  | .negSucc n => '0' :: '.' :: (List.replicate (n + 1) '0' ++ ds)

/-- Digits in exponent form. -/
def withExponent (plus : Bool) (ds : List Char) (e : Int) : List Char :=
  let sign := if plus ∧ 0 < e then ['+'] else []
  let mantissa := match ds with
    | [] => []
    | [d] => [d]
    | d :: rest => d :: '.' :: rest
  mantissa ++ 'e' :: (sign ++ intDigits e)

/-- The digits of a natural without its trailing zeros. -/
def significant (n : Nat) : List Char := ((natDigits n).reverse.dropWhile (· == '0')).reverse

/-- The layout of a positive decimal number. -/
def Style.layout (s : Style) (d : Digits) : List Char :=
  let e := d.exponent + (natDigits d.digits).length - 1
  let ds := significant d.digits
  if s.least ≤ e ∧ e ≤ s.greatest then withPoint ds (e + 1)
  else withExponent s.plus ds e

/-- The magnitude `m * 2 ^ q`. -/
def Style.magnitude (s : Style) (m : Nat) (q : Int) : List Char :=
  if m = 0 then ['0', '.', '0'] else s.layout (shortest s.tie m q)

/-- A minus sign before negative values, zero included. -/
def signed (negative : Bool) (cs : List Char) : List Char := if negative then '-' :: cs else cs

/-- A finite float in a style; none for the values that are not numbers. -/
def Style.finite? (s : Style) (x : Float) : Option (List Char) :=
  match Binary.ofFloat x with
  | .finite negative m q => some (signed negative (s.magnitude m q))
  | _ => none

/-- The texts of the values that no digits are written for. -/
def notFinite : Binary → List Char
  | .infinite true => ['-', 'i', 'n', 'f']
  | .infinite false => ['i', 'n', 'f']
  | _ => ['N', 'a', 'N']

/-- A float in a style. -/
def Style.write (s : Style) (x : Float) : List Char :=
  (s.finite? x).getD (notFinite (Binary.ofFloat x))

/-- A float with two decimal places, an exact half going to the even neighbour. -/
def twoPlaces (x : Float) : List Char :=
  match Binary.ofFloat x with
  | .finite negative m q =>
    let n := Ratio.round .toEven ((Ratio.twoPow q).scale (m * 100))
    signed negative (natDigits (n / 100) ++ '.' :: padded 2 (n % 100))
  | b => notFinite b

end ProposalReview.Decimal
