import ProposalReview.Text.CaseFold
import ProposalReview.Text.Property
/-!
Sets of characters, as a pattern describes them.
-/

namespace ProposalReview

/-- A description of a set of characters. -/
inductive CharSet where
  | none
  | range (low high : Char)
  | digits
  | blanks
  | wordChars
  | compl (s : CharSet)
  | union (s t : CharSet)
  | inter (s t : CharSet)
  | diff (s t : CharSet)
  | symmDiff (s t : CharSet)
  /-- All case variants of the members. -/
  | anyCase (s : CharSet)
  deriving Repr

namespace CharSet

/-- Whether a character is in the set. -/
def mem : CharSet → Char → Bool
  | none, _ => false
  | range low high, c => decide (low ≤ c) && decide (c ≤ high)
  | digits, c => Text.isAnyDigit c
  | blanks, c => Text.isBlank c
  | wordChars, c => Text.isWordChar c
  | compl s, c => !s.mem c
  | union s t, c => s.mem c || t.mem c
  | inter s t, c => s.mem c && t.mem c
  | diff s t, c => s.mem c && !t.mem c
  | symmDiff s t, c => s.mem c != t.mem c
  | anyCase s, c => (Text.caseVariants c).any s.mem

/-- The set of one character. -/
def single (c : Char) : CharSet := range c c

/-- The union of a list of sets. -/
def unions : List CharSet → CharSet
  | [] => none
  | [s] => s
  | s :: t :: ss => union s (unions (t :: ss))

/-- The named sets of ASCII characters. -/
def named? : String → Option CharSet
  | "alnum" => some (unions [range '0' '9', range 'A' 'Z', range 'a' 'z'])
  | "alpha" => some (union (range 'A' 'Z') (range 'a' 'z'))
  | "ascii" => some (range '\x00' '\x7f')
  | "blank" => some (union (single '\t') (single ' '))
  | "cntrl" => some (union (range '\x00' '\x1f') (single '\x7f'))
  | "digit" => some (range '0' '9')
  | "graph" => some (range '!' '~')
  | "lower" => some (range 'a' 'z')
  | "print" => some (range ' ' '~')
  | "punct" => some (unions [range '!' '/', range ':' '@', range '[' '\x60', range '\x7b' '~'])
  | "space" => some (unions [range '\t' '\r', single ' '])
  | "upper" => some (range 'A' 'Z')
  | "word" => some (unions [range '0' '9', range 'A' 'Z', single '_', range 'a' 'z'])
  | "xdigit" => some (unions [range '0' '9', range 'A' 'F', range 'a' 'f'])
  | _ => Option.none

end CharSet

end ProposalReview
