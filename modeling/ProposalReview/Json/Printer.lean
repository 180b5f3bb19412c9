import ProposalReview.Decimal.Written
import ProposalReview.Json.Value
/-!
Writing JSON, compactly or with two spaces of indentation.

Strings escape the quote, the backslash and the control characters, and nothing else. A float is
written with the shortest digits that read back and always shows a point or an exponent; one that is
not finite is written as null.
-/

namespace ProposalReview.Json

/-- The style of floats in JSON: positional from `10 ^ -5` below `10 ^ 16`. -/
def floatStyle : Decimal.Style where
  tie := .toEven
  least := -5
  greatest := 15
  plus := true

/-- A float in JSON. -/
def writeFloat (x : Float) : List Char := (floatStyle.finite? x).getD ['n', 'u', 'l', 'l']

/-- A number in JSON. -/
def writeNumber : JsonNumber → List Char
  | .integer n => Decimal.intDigits n
  | .float x => writeFloat x

/-- A digit of base sixteen. -/
def hexDigit (n : Nat) : Char := Nat.digitChar n

/-- A character inside a string literal. -/
def writeChar (c : Char) : List Char :=
  if c = '\x22' then ['\\', '\x22']
  else if c = '\\' then ['\\', '\\']
  else if c = '\n' then ['\\', 'n']
  else if c = '\t' then ['\\', 't']
  else if c = '\r' then ['\\', 'r']
  else if c = '\x08' then ['\\', 'b']
  else if c = '\x0c' then ['\\', 'f']
  else if c.toNat < 32 then
    ['\\', 'u', '0', '0', hexDigit (c.toNat / 16), hexDigit (c.toNat % 16)]
  else [c]

/-- A string literal. -/
def writeString (s : String) : List Char :=
  '\x22' :: (s.toList.flatMap writeChar ++ ['\x22'])

mutual

/-- A value on one line, without blanks. -/
def write : Json → List Char
  | .null => ['n', 'u', 'l', 'l']
  | .bool true => ['t', 'r', 'u', 'e']
  | .bool false => ['f', 'a', 'l', 's', 'e']
  | .number n => writeNumber n
  | .string s => writeString s
  | .array [] => ['[', ']']
  | .array (x :: xs) => '[' :: (write x ++ (writeItems xs ++ [']']))
  | .object [] => ['\x7b', '\x7d']
  | .object ((k, x) :: ms) =>
    '\x7b' :: (writeString k ++ ':' :: (write x ++ (writeMembers ms ++ ['\x7d'])))

/-- The items after the first. -/
def writeItems : List Json → List Char
  | [] => []
  | x :: xs => ',' :: (write x ++ writeItems xs)

/-- The members after the first. -/
def writeMembers : List (String × Json) → List Char
  | [] => []
  | (k, x) :: ms => ',' :: (writeString k ++ ':' :: (write x ++ writeMembers ms))

end

/-- A new line at a depth of nesting. -/
def newline (depth : Nat) : List Char := '\n' :: List.replicate (2 * depth) ' '

mutual

/-- A value over several lines, at a depth of nesting. -/
def writeIndented (depth : Nat) : Json → List Char
  | .array (x :: xs) =>
    '[' :: (newline (depth + 1) ++ (writeIndented (depth + 1) x ++
      (indentItems depth xs ++ (newline depth ++ [']']))))
  | .object ((k, x) :: ms) =>
    '\x7b' :: (newline (depth + 1) ++ (writeString k ++ ':' :: ' ' ::
      (writeIndented (depth + 1) x ++ (indentMembers depth ms ++ (newline depth ++ ['\x7d'])))))
  | .array [] => ['[', ']']
  | .object [] => ['\x7b', '\x7d']
  | .null => ['n', 'u', 'l', 'l']
  | .bool true => ['t', 'r', 'u', 'e']
  | .bool false => ['f', 'a', 'l', 's', 'e']
  | .number n => writeNumber n
  | .string s => writeString s

/-- The items after the first, for an array at a depth of nesting. -/
def indentItems (depth : Nat) : List Json → List Char
  | [] => []
  | x :: xs =>
    ',' :: (newline (depth + 1) ++ (writeIndented (depth + 1) x ++ indentItems depth xs))

/-- The members after the first, for an object at a depth of nesting. -/
def indentMembers (depth : Nat) : List (String × Json) → List Char
  | [] => []
  | (k, x) :: ms =>
    ',' :: (newline (depth + 1) ++ (writeString k ++ ':' :: ' ' ::
      (writeIndented (depth + 1) x ++ indentMembers depth ms)))

end

/-- A value on one line. -/
def compact (j : Json) : String := String.ofList (write j)

/-- A value over several lines. -/
def pretty (j : Json) : String := String.ofList (writeIndented 0 j)

end ProposalReview.Json
