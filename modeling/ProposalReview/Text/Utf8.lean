/-!
UTF-8 between bytes and characters.

Encoding is exact. Decoding accepts any bytes: where no character is encoded, the longest start of
a character, or else one byte, is read as U+FFFD.
-/

namespace ProposalReview

/-- A sequence of bytes: a file's content, or a name in the file system. -/
abbrev Bytes := List UInt8

namespace Text

/-- The encoding of a text. -/
def encode (cs : List Char) : Bytes := cs.flatMap String.utf8EncodeChar

/-- The character that stands for bytes that encode none. -/
def replacement : Char := '\ufffd'

/-- How a character begins: how many bytes follow its first, and the closed range that the second
byte is in. No character begins with any other byte. -/
def lead? (b : UInt8) : Option (Nat × UInt8 × UInt8) :=
  if b < 0x80 then some (0, 0x80, 0xbf)
  else if b < 0xc2 then none
  else if b < 0xe0 then some (1, 0x80, 0xbf)
  else if b = 0xe0 then some (2, 0xa0, 0xbf)
  else if b = 0xed then some (2, 0x80, 0x9f)
  else if b < 0xf0 then some (2, 0x80, 0xbf)
  else if b = 0xf0 then some (3, 0x90, 0xbf)
  else if b < 0xf4 then some (3, 0x80, 0xbf)
  else if b = 0xf4 then some (3, 0x80, 0x8f)
  else none

/-- The bits of a first byte that belong to the character, by the number of bytes that follow. -/
def leadBits (b : UInt8) : Nat → Nat
  | 0 => b.toNat
  | 1 => b.toNat % 32
  | 2 => b.toNat % 16
  | _ => b.toNat % 8

/-- What is known of the character being read: the bytes still owed, the range of the next one,
and the bits so far. -/
structure Partial where
  owed : Nat
  low : UInt8
  high : UInt8
  bits : Nat

/-- Reads a byte as the first of a character, and goes on after it. -/
def startWith (next : Option Partial → List Char) (b : UInt8) : List Char :=
  match lead? b with
  | none => replacement :: next none
  | some (0, _, _) => Char.ofNat b.toNat :: next none
  | some (n + 1, low, high) => next (some ⟨n + 1, low, high, leadBits b (n + 1)⟩)

/-- Decodes bytes, given the character that is being read, if any. A byte that cannot continue the
character ends it as U+FFFD and is read afresh. -/
def decodeFrom : Option Partial → Bytes → List Char
  | none, [] => []
  | some _, [] => [replacement]
  | none, b :: bs => startWith (fun p => decodeFrom p bs) b
  | some p, b :: bs =>
    if p.low ≤ b ∧ b ≤ p.high then
      let bits := p.bits * 64 + b.toNat % 64
      if p.owed ≤ 1 then Char.ofNat bits :: decodeFrom none bs
      else decodeFrom (some ⟨p.owed - 1, 0x80, 0xbf, bits⟩) bs
    else replacement :: startWith (fun p => decodeFrom p bs) b

/-- The text that bytes stand for. -/
def decode (bs : Bytes) : List Char := decodeFrom none bs

/-- The string that bytes stand for. -/
def decodeString (bs : Bytes) : String := String.ofList (decode bs)

/-- The encoding of a string. -/
def encodeString (s : String) : Bytes := encode s.toList

/-- Whether bytes encode a text. -/
def IsUtf8 (bs : Bytes) : Prop := encode (decode bs) = bs

instance (bs : Bytes) : Decidable (IsUtf8 bs) := inferInstanceAs (Decidable (_ = _))

/-- The string that bytes encode, if they encode one. -/
def utf8? (bs : Bytes) : Option String := if IsUtf8 bs then some (decodeString bs) else none

end Text

end ProposalReview
