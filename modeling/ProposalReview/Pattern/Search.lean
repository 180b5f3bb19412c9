import ProposalReview.Pattern.Basic
/-!
Searching a text for a pattern.

For every index a pattern has a list of the ends of its matches from there, the preferred one first
and none twice. These lists are computed for all indices at once, part by part, so the work is
bounded by the size of the pattern times a power of the length of the text.
-/

namespace ProposalReview.Pattern

/-- For every index of a text, the ends of the matches that start there, in order of preference. -/
abbrev Ends := Array (List Nat)

/-- The ends of the matches from an index. -/
def Ends.at (t : Ends) (i : Nat) : List Nat := t.getD i []

/-- The ends given index by index for a text of some length. -/
def Ends.tabulate (length : Nat) (f : Nat → List Nat) : Ends :=
  Array.ofFn fun i : Fin (length + 1) => (f i.val).eraseDups

/-- One match after another. -/
def Ends.andThen (length : Nat) (s t : Ends) : Ends :=
  Ends.tabulate length fun i => (s.at i).flatMap t.at

/-- Either going on or stopping at an index, in order of preference. -/
def choices (greedy : Bool) (goOn : List Nat) (i : Nat) : List Nat :=
  if greedy then goOn ++ [i] else i :: goOn

/-- At most one round before what comes later. -/
def Ends.optional (length : Nat) (greedy : Bool) (s t : Ends) : Ends :=
  Ends.tabulate length fun i => choices greedy ((s.at i).flatMap t.at) i

/-- The ends of any number of rounds, for the last `n` indices of a text. Each round but the last
moves on, so the lists are built from the end of the text. -/
def anyRounds (length : Nat) (greedy : Bool) (s : Ends) : Nat → List (List Nat)
  | 0 => []
  | n + 1 =>
    let later := anyRounds length greedy s n
    let i := length - n
    let goOn := ((s.at i).filter (i < ·)).flatMap fun k => later.getD (k - i - 1) []
    (choices greedy goOn i).eraseDups :: later

/-- A step done a number of times. -/
def iterate (f : Ends → Ends) : Nat → Ends → Ends
  | 0, t => t
  | n + 1, t => iterate f n (f t)

/-- The ends of a pattern's matches in a text. More rounds than the text has places add nothing:
one of them would not move on. -/
def ends (w : Array Char) : Pattern → Ends
  | .empty => Ends.tabulate w.size fun i => [i]
  | .set s => Ends.tabulate w.size fun i => if w[i]?.any s.mem then [i + 1] else []
  | .anchor a => Ends.tabulate w.size fun i => if a.holds w i then [i] else []
  | .seq p q => (ends w p).andThen w.size (ends w q)
  | .alt p q =>
    let s := ends w p
    let t := ends w q
    Ends.tabulate w.size fun i => s.at i ++ t.at i
  | .rounds p least most greedy =>
    let s := ends w p
    let free := match most with
      | none => (anyRounds w.size greedy s (w.size + 1)).toArray
      | some m =>
        iterate (Ends.optional w.size greedy s) (min (m - least) (w.size + 1))
          (Ends.tabulate w.size fun i => [i])
    iterate (s.andThen w.size) (min least (w.size + 1)) free

/-- The leftmost match of a pattern in a text, of those that start there the preferred one. -/
def find? (p : Pattern) (w : Array Char) : Option (Nat × Nat) :=
  let t := ends w p
  (List.range (w.size + 1)).findSome? fun i => (t.at i).head?.map fun j => (i, j)

/-- Whether the leftmost match starts at the start of the text. -/
def matchesStart (p : Pattern) (text : String) : Bool :=
  (p.find? text.toList.toArray).any fun m => m.1 == 0

/-- What makes a pattern of a text, or says what is wrong with the text. -/
abbrev Compiler := String → Except String Pattern

end ProposalReview.Pattern
