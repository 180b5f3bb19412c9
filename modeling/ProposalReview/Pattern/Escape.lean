import ProposalReview.Decimal.Numeral
import ProposalReview.Json.Reader
import ProposalReview.Pattern.Basic
/-!
The smallest parts of the pattern language: settings, escapes, counts and character classes.

Each function takes what is still to be read and gives what it read and what follows it, or nothing
if the text is refused.
-/

namespace ProposalReview.Pattern

/-- The settings that a pattern can switch on and off. -/
structure Settings where
  ignoreCase : Bool := false
  multiLine : Bool := false
  dotAll : Bool := false
  swapGreed : Bool := false
  returnLines : Bool := false
  spaced : Bool := false

/-- What follows blanks and comments; a comment lasts until the end of its line. -/
def skipSpace : Bool → List Char → List Char
  | _, [] => []
  | true, c :: cs => skipSpace (c != '\n') cs
  | false, c :: cs =>
    if Text.isBlank c then skipSpace false cs
    else if c = '#' then skipSpace true cs
    else c :: cs

/-- What follows blanks and comments where the settings allow them. -/
def Settings.skip (f : Settings) (cs : List Char) : List Char :=
  if f.spaced then skipSpace false cs else cs

/-- What follows blanks and comments, if the text goes on. -/
def Settings.skip? (f : Settings) (cs : List Char) : Option (Char × List Char) :=
  match f.skip cs with
  | [] => none
  | c :: rest => some (c, rest)

/-- The setting that a letter names, switched on or off. -/
def Settings.change? (f : Settings) (on : Bool) : Char → Option Settings
  | 'i' => some { f with ignoreCase := on }
  | 'm' => some { f with multiLine := on }
  | 's' => some { f with dotAll := on }
  | 'U' => some { f with swapGreed := on }
  | 'R' => some { f with returnLines := on }
  | 'x' => some { f with spaced := on }
  | 'u' => if on then some f else none
  | _ => none

/-- Reads settings up to their colon or closing parenthesis, given the letters seen so far. No
letter and no minus sign may be repeated, and a letter follows the minus sign. -/
def readSettings (f : Settings) (seen : List Char) : List Char → Option (Settings × Char × List Char)
  | [] => none
  | c :: cs =>
    if c = ':' ∨ c = ')' then (if seen.head? = some '-' then none else some (f, c, cs))
    else if c ∈ seen then none
    else if c = '-' then readSettings f ('-' :: seen) cs
    else match f.change? ('-' ∉ seen) c with
      | some f => readSettings f (c :: seen) cs
      | none => none

/-! ### Escapes -/

/-- What an escape stands for. -/
inductive Escaped where
  | char (c : Char)
  | set (s : CharSet)
  | anchor (a : Anchor)

/-- The character of a code point, if it is one. -/
def charOf? (n : Nat) : Option Char := if n.isValidChar then some (Char.ofNat n) else none

/-- Reads a fixed number of hexadecimal digits. -/
def readHexDigits (f : Settings) : Nat → Nat → List Char → Option (Nat × List Char)
  | 0, n, cs => some (n, cs)
  | k + 1, n, cs =>
    match f.skip cs with
    | [] => none
    | c :: cs => (Json.hexValue? c).bind fun d => readHexDigits f k (n * 16 + d) cs

/-- Reads hexadecimal digits up to a closing brace. -/
def readHexBraced (f : Settings) : Nat → Option Nat → List Char → Option (Nat × List Char)
  | 0, _, _ => none
  | k + 1, n, cs =>
    match f.skip cs with
    | [] => none
    | c :: cs =>
      if c = '\x7d' then n.map fun n => (n, cs)
      else (Json.hexValue? c).bind fun d => readHexBraced f k (some (n.getD 0 * 16 + d)) cs

/-- Reads a character by its code point, given how many digits it has without braces. -/
def readCodePoint (f : Settings) (digits : Nat) (cs : List Char) : Option (Escaped × List Char) := do
  let (c, rest) ← f.skip? cs
  let (n, rest) ←
    if c = '\x7b' then readHexBraced f (rest.length + 1) none rest
    else readHexDigits f digits 0 (c :: rest)
  let d ← charOf? n
  pure (.char d, f.skip rest)

/-- Whether a character of ASCII may be escaped to stand for itself. -/
def escapable (c : Char) : Bool :=
  decide (c.toNat < 128) && !c.isAlphanum && c != '<' && c != '>'

/-- The anchor that a name in braces gives to a word boundary. -/
def boundary? : String → Option Anchor
  | "start" => some (.word .start true)
  | "end" => some (.word .finish true)
  | "start-half" => some (.word .startHalf true)
  | "end-half" => some (.word .finishHalf true)
  | _ => none

/-- Whether a character can be part of the name of a word boundary. -/
def isBoundaryChar (c : Char) : Bool := c.isAlpha || c == '-'

/-- Reads the name of a word boundary up to its closing brace. -/
def readBoundaryName (f : Settings) : Nat → List Char → List Char → Option (Anchor × List Char)
  | 0, _, _ => none
  | k + 1, name, cs =>
    match cs with
    | [] => none
    | c :: rest =>
      if isBoundaryChar c then readBoundaryName f k (c :: name) (f.skip rest)
      else if c = '\x7d' then (boundary? (String.ofList name.reverse)).map fun a => (a, rest)
      else none

/-- Reads what follows the letter of a word boundary: a name in braces, or nothing. -/
def readBoundary (f : Settings) (cs : List Char) : Option (Anchor × List Char) :=
  match cs with
  | [] => some (.word .boundary true, [])
  | c :: rest =>
    if c = '\x7b' then
      match f.skip rest with
      | [] => none
      | d :: ds =>
        if isBoundaryChar d then readBoundaryName f (ds.length + 2) [] (d :: ds)
        else some (.word .boundary true, cs)
    else some (.word .boundary true, cs)

/-- Reads an escape after its backslash. -/
def readEscape (f : Settings) : List Char → Option (Escaped × List Char)
  | [] => none
  | c :: cs =>
    if escapable c then some (.char c, cs)
    else match c with
      | 'x' => readCodePoint f 2 cs
      | 'u' => readCodePoint f 4 cs
      | 'U' => readCodePoint f 8 cs
      | 'd' => some (.set .digits, cs)
      | 'D' => some (.set (.compl .digits), cs)
      | 's' => some (.set .blanks, cs)
      | 'S' => some (.set (.compl .blanks), cs)
      | 'w' => some (.set .wordChars, cs)
      | 'W' => some (.set (.compl .wordChars), cs)
      | 'a' => some (.char '\x07', cs)
      | 'f' => some (.char '\x0c', cs)
      | 't' => some (.char '\t', cs)
      | 'n' => some (.char '\n', cs)
      | 'r' => some (.char '\r', cs)
      | 'v' => some (.char '\x0b', cs)
      | 'A' => some (.anchor .textStart, cs)
      | 'z' => some (.anchor .textEnd, cs)
      | 'b' => (readBoundary f cs).map fun r => (.anchor r.1, r.2)
      | 'B' => some (.anchor (.word .notBoundary true), cs)
      | '<' => some (.anchor (.word .start true), cs)
      | '>' => some (.anchor (.word .finish true), cs)
      | _ => none

/-! ### Counts -/

/-- The greatest count of a repetition. -/
def countLimit : Nat := Nat.pow 2 32 - 1

/-- Reads the digits of a count. -/
def readDigits (f : Settings) : Nat → List Char → List Char × List Char
  | 0, cs => ([], cs)
  | _ + 1, [] => ([], [])
  | k + 1, c :: cs =>
    if c.isDigit then
      let (ds, rest) := readDigits f k (f.skip cs)
      (c :: ds, rest)
    else ([], c :: cs)

/-- Reads a count with blanks around it. -/
def readCount (f : Settings) (cs : List Char) : Option (Nat × List Char) :=
  let (ds, rest) := readDigits f cs.length (Text.trimStart cs)
  let n := Decimal.ofDigits ds
  if ds.isEmpty ∨ countLimit < n then none else some (n, f.skip (Text.trimStart rest))

/-- Reads the bounds of a repetition after the opening brace. -/
def readBounds (f : Settings) (cs : List Char) : Option (Nat × Option Nat × List Char) := do
  let (least, rest) ← readCount f (f.skip cs)
  match rest with
  | [] => none
  | c :: rest =>
    if c = '\x7d' then some (least, some least, rest)
    else if c = ',' then
      let (d, ds) ← f.skip? rest
      if d = '\x7d' then some (least, none, ds)
      else
        let (most, rest) ← readCount f (d :: ds)
        if rest.head? = some '\x7d' ∧ least ≤ most then some (least, some most, rest.tail) else none
    else none

end ProposalReview.Pattern
