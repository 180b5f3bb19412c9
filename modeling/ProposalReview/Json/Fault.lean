import ProposalReview.Decimal.Written
import ProposalReview.Text.Utf8
/-!
Why a text is not JSON, and where.

A fault is found at a place in the text: some bytes after the start of what was still to be read. It
is reported by line and column, both counted in bytes, lines from one.
-/

namespace ProposalReview.Json

/-- What is wrong with a text. -/
inductive Reason where
  | endOfValue
  | endOfObject
  | endOfList
  | endOfString
  | expectedValue
  | expectedWord
  | expectedColon
  | expectedCommaOrBrace
  | expectedCommaOrBracket
  | keyNotString
  | trailingComma
  | trailingCharacters
  | invalidNumber
  | numberOutOfRange
  | invalidEscape
  | loneSurrogate
  | endOfHexEscape
  | controlCharacter
  | tooDeep
  deriving DecidableEq, Repr

/-- The wording of a reason. -/
def Reason.text : Reason → String
  | .endOfValue => "EOF while parsing a value"
  | .endOfObject => "EOF while parsing an object"
  | .endOfList => "EOF while parsing a list"
  | .endOfString => "EOF while parsing a string"
  | .expectedValue => "expected value"
  | .expectedWord => "expected ident"
  | .expectedColon => "expected \x60:\x60"
  | .expectedCommaOrBrace => "expected \x60,\x60 or \x60\x7d\x60"
  | .expectedCommaOrBracket => "expected \x60,\x60 or \x60]\x60"
  | .keyNotString => "key must be a string"
  | .trailingComma => "trailing comma"
  | .trailingCharacters => "trailing characters"
  | .invalidNumber => "invalid number"
  | .numberOutOfRange => "number out of range"
  | .invalidEscape => "invalid escape"
  | .loneSurrogate => "lone leading surrogate in hex escape"
  | .endOfHexEscape => "unexpected end of hex escape"
  | .controlCharacter => "control character (\\u0000-\\u001F) found while parsing a string"
  | .tooDeep => "recursion limit exceeded"

/-- Whether the text ended too early. -/
def Reason.isEnd : Reason → Bool
  | .endOfValue | .endOfObject | .endOfList | .endOfString => true
  | _ => false

/-- A reason, what was still to be read, and how many bytes into it the fault lies. -/
structure Fault where
  reason : Reason
  rest : List Char
  ahead : Nat

/-- A fault at the next character, which is counted as read if there is one. -/
def Fault.next (reason : Reason) (rest : List Char) : Fault := ⟨reason, rest, 1⟩

/-- A fault at the end of what was read. -/
def Fault.here (reason : Reason) (rest : List Char) : Fault := ⟨reason, rest, 0⟩

/-- The line and column reached after some bytes. -/
def position (bs : Bytes) : Nat × Nat :=
  bs.foldl (fun p b => if b = 0x0a then (p.1 + 1, 0) else (p.1, p.2 + 1)) (1, 0)

/-- Where a fault lies in the text that was read. -/
def Fault.position (text : List Char) (f : Fault) : Nat × Nat :=
  let bytes := Text.encode text
  Json.position (bytes.take (bytes.length - (Text.encode f.rest).length + f.ahead))

/-- A fault as reported for a text. -/
def Fault.message (text : List Char) (f : Fault) : String :=
  let p := f.position text
  f.reason.text ++ " at line " ++ String.ofList (Decimal.natDigits p.1) ++ " column "
    ++ String.ofList (Decimal.natDigits p.2)

end ProposalReview.Json
