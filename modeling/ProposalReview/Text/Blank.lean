/-!
Blank characters and trimming.

A character is blank when it has the Unicode property White_Space. Trimming takes blanks off both
ends; a token is a longest run of characters that are not blank.
-/

namespace ProposalReview.Text

/-- The code points of White_Space as closed ranges, in increasing order. -/
def blankRanges : List (Nat × Nat) :=
  [(0x9, 0xd), (0x20, 0x20), (0x85, 0x85), (0xa0, 0xa0), (0x1680, 0x1680), (0x2000, 0x200a),
   (0x2028, 0x2029), (0x202f, 0x202f), (0x205f, 0x205f), (0x3000, 0x3000)]

/-- Whether a code point lies in one of the ranges. -/
def inRanges (ranges : List (Nat × Nat)) (n : Nat) : Bool :=
  ranges.any fun r => decide (r.1 ≤ n) && decide (n ≤ r.2)

/-- Whether a character is Unicode white space. -/
def isBlank (c : Char) : Bool := inRanges blankRanges c.toNat

/-- The text without its leading blanks. -/
def trimStart (cs : List Char) : List Char := cs.dropWhile isBlank

/-- The text without its trailing blanks. -/
def trimEnd (cs : List Char) : List Char := (cs.reverse.dropWhile isBlank).reverse

/-- The text without blanks at either end. -/
def trim (cs : List Char) : List Char := trimEnd (trimStart cs)

/-- The first token of a text, empty if the text is blank. -/
def firstToken (cs : List Char) : List Char := (trimStart cs).takeWhile fun c => !isBlank c

/-- Whether a text holds blanks only. -/
def allBlank (cs : List Char) : Bool := cs.all isBlank

/-- A string trimmed at both ends. -/
def trimmed (s : String) : String := String.ofList (trim s.toList)

end ProposalReview.Text
