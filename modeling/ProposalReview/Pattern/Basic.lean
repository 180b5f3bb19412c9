import ProposalReview.Pattern.CharSet
/-!
Patterns and what they match.

A pattern matches a stretch of a text, from one index to another. `Matches` states this one rule for
each kind of pattern; it says nothing about which match is preferred.
-/

namespace ProposalReview

/-- A condition on the two sides of a place, by whether there is a part of a word. -/
inductive WordEdge where
  | boundary
  | notBoundary
  | start
  | finish
  | startHalf
  | finishHalf
  deriving DecidableEq, Repr

/-- Whether a condition holds between what is (or is not) a part of a word before and after. -/
def WordEdge.between (before after : Bool) : WordEdge → Bool
  | .boundary => before != after
  | .notBoundary => before == after
  | .start => !before && after
  | .finish => before && !after
  | .startHalf => !before
  | .finishHalf => !after

/-- A condition on a place in a text. -/
inductive Anchor where
  | textStart
  | textEnd
  | lineStart
  | lineEnd
  /-- The start of a line that may end with CR, LF or both. -/
  | returnLineStart
  /-- The end of a line that may end with CR, LF or both. -/
  | returnLineEnd
  /-- A condition on words, whose characters are those of ASCII only unless `wide`. -/
  | word (edge : WordEdge) (wide : Bool)
  deriving DecidableEq, Repr

/-- Whether a character is a part of a word. -/
def Anchor.isWordPart (wide : Bool) (c : Char) : Bool :=
  if wide then Text.isWordChar c else c.isAlphanum || c == '_'

/-- Whether an anchor holds between two neighbouring characters of a text; at its ends one of them
is absent. -/
def Anchor.between (before after : Option Char) : Anchor → Bool
  | .textStart => before.isNone
  | .textEnd => after.isNone
  | .lineStart => before.isNone || before == some '\n'
  | .lineEnd => after.isNone || after == some '\n'
  | .returnLineStart =>
    before.isNone || before == some '\n' || (before == some '\r' && after != some '\n')
  | .returnLineEnd =>
    after.isNone || after == some '\r' || (after == some '\n' && before != some '\r')
  | .word edge wide => edge.between (before.any (isWordPart wide)) (after.any (isWordPart wide))

/-- Whether an anchor holds at an index of a text. -/
def Anchor.holds (a : Anchor) (w : Array Char) (i : Nat) : Bool :=
  a.between (if i = 0 then none else w[i - 1]?) w[i]?

/-- A pattern. A repetition has a least and perhaps a greatest count, and prefers many rounds if it
is greedy and few if it is not. -/
inductive Pattern where
  | empty
  | set (s : CharSet)
  | anchor (a : Anchor)
  | seq (p q : Pattern)
  | alt (p q : Pattern)
  | rounds (p : Pattern) (least : Nat) (most : Option Nat) (greedy : Bool)
  deriving Repr

namespace Pattern

/-- A pattern matches a text from one index to another. -/
inductive Matches (w : Array Char) : Pattern → Nat → Nat → Prop where
  | empty {i : Nat} : i ≤ w.size → Matches w .empty i i
  | set {s : CharSet} {i : Nat} {c : Char} :
      w[i]? = some c → s.mem c = true → Matches w (.set s) i (i + 1)
  | anchor {a : Anchor} {i : Nat} :
      i ≤ w.size → a.holds w i = true → Matches w (.anchor a) i i
  | seq {p q : Pattern} {i j k : Nat} :
      Matches w p i j → Matches w q j k → Matches w (.seq p q) i k
  | altLeft {p q : Pattern} {i j : Nat} : Matches w p i j → Matches w (.alt p q) i j
  | altRight {p q : Pattern} {i j : Nat} : Matches w q i j → Matches w (.alt p q) i j
  | done {p : Pattern} {most : Option Nat} {g : Bool} {i : Nat} :
      i ≤ w.size → Matches w (.rounds p 0 most g) i i
  | round {p : Pattern} {least : Nat} {most : Option Nat} {g : Bool} {i j k : Nat} :
      most ≠ some 0 → Matches w p i j →
      Matches w (.rounds p (least - 1) (most.map (· - 1)) g) j k →
      Matches w (.rounds p least most g) i k

/-- All the patterns of a list, one after another. -/
def seqs : List Pattern → Pattern
  | [] => .empty
  | [p] => p
  | p :: q :: ps => .seq p (seqs (q :: ps))

/-- Any one pattern of a list, earlier ones preferred. -/
def alts : List Pattern → Pattern
  | [] => .empty
  | [p] => p
  | p :: q :: ps => .alt p (alts (q :: ps))

end Pattern

end ProposalReview
