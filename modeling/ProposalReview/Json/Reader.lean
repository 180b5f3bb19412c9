import ProposalReview.Json.Number
/-!
Reading JSON text.

Each reading function takes what is still to be read and gives a value and what follows it, or the
first fault. Values nest at most 127 deep. A repeated key is not a fault; all members are kept in the
order read.
-/

namespace ProposalReview.Json

/-- Whether a character may stand between tokens. -/
def isGap (c : Char) : Bool := c == ' ' || c == '\n' || c == '\t' || c == '\r'

/-- What follows the blanks between tokens. -/
def skipGap (cs : List Char) : List Char := cs.dropWhile isGap

/-- Reads the rest of a word such as `true`. -/
def readWord : List Char → List Char → Except Fault (List Char)
  | [], cs => .ok cs
  | _ :: _, [] => .error (.here .endOfValue [])
  | w :: ws, c :: cs => if c = w then readWord ws cs else .error (.next .expectedWord (c :: cs))

/-! ### Strings -/

/-- The value of a digit of base sixteen. -/
def hexValue? (c : Char) : Option Nat :=
  if c.isDigit then some (c.toNat - '0'.toNat)
  else if 'a' ≤ c ∧ c ≤ 'f' then some (c.toNat - 'a'.toNat + 10)
  else if 'A' ≤ c ∧ c ≤ 'F' then some (c.toNat - 'A'.toNat + 10)
  else none

/-- The value of a list of digits of base sixteen. -/
def hexValues? (cs : List Char) : Option Nat :=
  cs.foldl (fun n c => n.bind fun n => (hexValue? c).map (n * 16 + ·)) (some 0)

/-- Reads the four hexadecimal digits of an escape. -/
def readHex (cs : List Char) : Except Fault (Nat × List Char) :=
  if (Text.encode cs).length < 4 then .error (.here .endOfString [])
  else match hexValues? (cs.take 4) with
    | some n => .ok (n, cs.drop 4)
    | none => .error ⟨.invalidEscape, cs, 4⟩

/-- Reads one expected character of a surrogate pair. -/
def readPairMark (mark : Char) : List Char → Except Fault (List Char)
  | [] => .error (.here .endOfString [])
  | c :: cs => if c = mark then .ok cs else .error (.next .endOfHexEscape (c :: cs))

/-- Reads the second half of a surrogate pair, given the first. -/
def readPair (high : Nat) (cs : List Char) : Except Fault (Char × List Char) := do
  let cs ← readPairMark '\\' cs
  let cs ← readPairMark 'u' cs
  let (low, cs) ← readHex cs
  if 0xdc00 ≤ low ∧ low ≤ 0xdfff then
    pure (Char.ofNat ((high - 0xd800) * 1024 + (low - 0xdc00) + 0x10000), cs)
  else throw (.here .loneSurrogate cs)

/-- Reads a hexadecimal escape after its letter. -/
def readUnicode (cs : List Char) : Except Fault (Char × List Char) := do
  let (n, cs) ← readHex cs
  if 0xdc00 ≤ n ∧ n ≤ 0xdfff then throw (.here .loneSurrogate cs)
  else if 0xd800 ≤ n ∧ n ≤ 0xdbff then readPair n cs
  else pure (Char.ofNat n, cs)

/-- The character of a one letter escape. -/
def shortEscape? : Char → Option Char
  | '\x22' => some '\x22'
  | '\\' => some '\\'
  | '/' => some '/'
  | 'b' => some '\x08'
  | 'f' => some '\x0c'
  | 'n' => some '\n'
  | 'r' => some '\r'
  | 't' => some '\t'
  | _ => none

/-- Reads an escape after its backslash. -/
def readEscape : List Char → Except Fault (Char × List Char)
  | [] => .error (.here .endOfString [])
  | c :: cs =>
    match shortEscape? c with
    | some d => .ok (d, cs)
    | none => if c = 'u' then readUnicode cs else .error (.next .invalidEscape (c :: cs))

/-- Reads the inside of a string and its closing quote. The first argument bounds the number of
characters read. -/
def readStringBody : Nat → List Char → Except Fault (List Char × List Char)
  | 0, cs => .error (.here .endOfString cs)
  | _ + 1, [] => .error (.here .endOfString [])
  | n + 1, c :: cs =>
    if c = '\x22' then .ok ([], cs)
    else if c = '\\' then do
      let (d, cs) ← readEscape cs
      let (ds, cs) ← readStringBody n cs
      pure (d :: ds, cs)
    else if c.toNat < 32 then .error (.next .controlCharacter (c :: cs))
    else do
      let (ds, cs) ← readStringBody n cs
      pure (c :: ds, cs)

/-- Reads a string after its opening quote. -/
def readString (cs : List Char) : Except Fault (String × List Char) := do
  let (ds, cs) ← readStringBody (cs.length + 1) cs
  pure (String.ofList ds, cs)

/-! ### Values -/

/-- Whether another item follows in a list: none at the closing bracket, else where it begins. -/
def nextItem (first : Bool) (cs : List Char) : Except Fault (Option (List Char)) :=
  match skipGap cs with
  | [] => .error (.here .endOfList [])
  | c :: cs =>
    if c = ']' then .ok none
    else if first then .ok (some (c :: cs))
    else if c = ',' then
      match skipGap cs with
      | [] => .error (.here .endOfValue [])
      | d :: ds => if d = ']' then .error (.next .trailingComma (d :: ds)) else .ok (some (d :: ds))
    else .error (.next .expectedCommaOrBracket (c :: cs))

/-- Whether another member follows in an object: none at the closing brace, else what follows the
opening quote of its key. -/
def nextMember (first : Bool) (cs : List Char) : Except Fault (Option (List Char)) :=
  match skipGap cs with
  | [] => .error (.here .endOfObject [])
  | c :: cs =>
    if c = '\x7d' then .ok none
    else if first then
      if c = '\x22' then .ok (some cs) else .error (.next .keyNotString (c :: cs))
    else if c = ',' then
      match skipGap cs with
      | [] => .error (.here .endOfValue [])
      | d :: ds =>
        if d = '\x22' then .ok (some ds)
        else if d = '\x7d' then .error (.next .trailingComma (d :: ds))
        else .error (.next .keyNotString (d :: ds))
    else .error (.next .expectedCommaOrBrace (c :: cs))

/-- Reads the colon after a key. -/
def readColon (cs : List Char) : Except Fault (List Char) :=
  match skipGap cs with
  | [] => .error (.here .endOfObject [])
  | c :: cs => if c = ':' then .ok cs else .error (.next .expectedColon (c :: cs))

mutual

/-- Reads a value that may still nest `depth` deep. The first argument bounds the number of steps;
every step reads a character. -/
def readValue : Nat → Nat → List Char → Except Fault (Json × List Char)
  | 0, _, cs => .error (.here .endOfValue cs)
  | n + 1, depth, cs =>
    match skipGap cs with
    | [] => .error (.here .endOfValue [])
    | c :: cs =>
      if c = 'n' then do
        let cs ← readWord ['u', 'l', 'l'] cs
        pure (.null, cs)
      else if c = 't' then do
        let cs ← readWord ['r', 'u', 'e'] cs
        pure (.bool true, cs)
      else if c = 'f' then do
        let cs ← readWord ['a', 'l', 's', 'e'] cs
        pure (.bool false, cs)
      else if c = '-' then readNumber true cs
      else if c.isDigit then readNumber false (c :: cs)
      else if c = '\x22' then do
        let (s, cs) ← readString cs
        pure (.string s, cs)
      else if c = '[' then
        if depth = 0 then .error (.next .tooDeep (c :: cs))
        else do
          let (xs, cs) ← readItems n (depth - 1) true cs
          pure (.array xs, cs)
      else if c = '\x7b' then
        if depth = 0 then .error (.next .tooDeep (c :: cs))
        else do
          let (ms, cs) ← readMembers n (depth - 1) true cs
          pure (.object ms, cs)
      else .error (.next .expectedValue (c :: cs))

/-- Reads the items of a list and its closing bracket. -/
def readItems : Nat → Nat → Bool → List Char → Except Fault (List Json × List Char)
  | 0, _, _, cs => .error (.here .endOfList cs)
  | n + 1, depth, first, cs => do
    match ← nextItem first cs with
    | none => pure ([], (skipGap cs).tail)
    | some cs =>
      let (x, cs) ← readValue n depth cs
      let (xs, cs) ← readItems n depth false cs
      pure (x :: xs, cs)

/-- Reads the members of an object and its closing brace. -/
def readMembers : Nat → Nat → Bool → List Char → Except Fault (JsonObject × List Char)
  | 0, _, _, cs => .error (.here .endOfObject cs)
  | n + 1, depth, first, cs => do
    match ← nextMember first cs with
    | none => pure ([], (skipGap cs).tail)
    | some cs =>
      let (k, cs) ← readString cs
      let cs ← readColon cs
      let (x, cs) ← readValue n depth cs
      let (ms, cs) ← readMembers n depth false cs
      pure ((k, x) :: ms, cs)

end

/-- How deep values may nest. -/
def depthLimit : Nat := 127

/-- Checks that only blanks follow. -/
def readEnd (cs : List Char) : Except Fault Unit :=
  match skipGap cs with
  | [] => .ok ()
  | c :: cs => .error (.next .trailingCharacters (c :: cs))

/-- The value that a whole text denotes. -/
def read (cs : List Char) : Except Fault Json := do
  let (j, rest) ← readValue (2 * cs.length + 2) depthLimit cs
  readEnd rest
  pure j

end ProposalReview.Json
