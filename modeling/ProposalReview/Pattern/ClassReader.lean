import ProposalReview.Pattern.Escape
/-!
Reading character classes in brackets: ranges, named sets, nested classes, complements, and the
operators for intersection, difference and symmetric difference, which group to the left.

Beside the set, its height is kept: how deep the class nests.
-/

namespace ProposalReview.Pattern

/-- A set read from a class, and how deep it nests. -/
structure ClassPart where
  set : CharSet
  height : Nat

/-- The operators between the parts of a class. -/
inductive SetOp where
  | inter
  | diff
  | symmDiff

/-- A set with all case variants where the settings ask for them. -/
def Settings.cased (f : Settings) (s : CharSet) : CharSet := if f.ignoreCase then .anyCase s else s

/-- The set that an operator gives. -/
def SetOp.apply : SetOp → CharSet → CharSet → CharSet
  | .inter => .inter
  | .diff => .diff
  | .symmDiff => .symmDiff

/-- The union of the parts read since the last operator, first part last. -/
def unionParts : List ClassPart → ClassPart
  | [] => ⟨.none, 0⟩
  | [p] => p
  | ps => ⟨.unions (ps.reverse.map (·.set)), ps.foldl (fun n p => max n p.height) 0 + 1⟩

/-- What an operator before the last parts makes of them. -/
def combine (f : Settings) (before : Option (ClassPart × SetOp)) (p : ClassPart) : ClassPart :=
  match before with
  | none => p
  | some (q, op) => ⟨op.apply (f.cased q.set) (f.cased p.set), max q.height p.height + 1⟩

/-- The class that its content and a complement sign stand for. -/
def closeClass (f : Settings) (negated : Bool) (p : ClassPart) : ClassPart :=
  let s := f.cased p.set
  ⟨if negated then .compl s else s, p.height + 1⟩

/-- Reads a named set such as `[:alpha:]` after its opening bracket. Case variants are added before
the complement is taken. -/
def readNamed (f : Settings) (cs : List Char) : Option (CharSet × List Char) :=
  match cs with
  | ':' :: rest =>
    let (negated, rest) := match rest with
      | '^' :: more => (true, more)
      | _ => (false, rest)
    let name := rest.takeWhile (· != ':')
    match rest.dropWhile (· != ':') with
    | ':' :: ']' :: after =>
      (CharSet.named? (String.ofList name)).map fun s =>
        (if negated then .compl (f.cased s) else f.cased s, after)
    | _ => none
  | _ => none

/-- Reads one character or escape of a class. -/
def readClassAtom (f : Settings) : List Char → Option (Escaped × List Char)
  | [] => none
  | c :: cs => if c = '\\' then readEscape f cs else some (.char c, cs)

/-- The character after the next one, past blanks and at most one comment sign where the settings
allow them; it tells a range from a hyphen. -/
def lookPast (f : Settings) (cs : List Char) : Option Char :=
  if f.spaced then
    let rest := match Text.trimStart cs with
      | '#' :: more => Text.trimStart more
      | more => more
    (if rest.isEmpty then cs else rest).head?
  else cs.head?

/-- The part that one character or escape stands for. -/
def Escaped.part? : Escaped → Option ClassPart
  | .char c => some ⟨.single c, 0⟩
  | .set s => some ⟨s, 0⟩
  | .anchor _ => none

/-- Reads a range, or a single character or escape. -/
def readRange (f : Settings) (cs : List Char) : Option (ClassPart × List Char) := do
  let (first, rest) ← readClassAtom f cs
  let (c, rest) ← f.skip? rest
  let after := lookPast f rest
  if c ≠ '-' ∨ after = some ']' ∨ after = some '-' then
    first.part?.map fun p => (p, c :: rest)
  else
    let (d, ds) ← f.skip? rest
    let (last, rest) ← readClassAtom f (d :: ds)
    match first, last with
    | .char low, .char high => if low ≤ high then some (⟨.range low high, 0⟩, rest) else none
    | _, _ => none

/-- Reads the hyphens at the start of a class, each a character of its own. -/
def readHyphens (f : Settings) : Nat → List ClassPart → List Char → List ClassPart × List Char
  | 0, ps, cs => (ps, cs)
  | _ + 1, ps, [] => (ps, [])
  | n + 1, ps, c :: cs =>
    if c = '-' then readHyphens f n (⟨.single '-', 0⟩ :: ps) (f.skip cs) else (ps, c :: cs)

/-- Reads the start of a class after its opening bracket: whether it is a complement, and the
characters that are special elsewhere but not here. -/
def openClass (f : Settings) (cs : List Char) : Option (Bool × List ClassPart × List Char) := do
  let (c, rest) ← f.skip? cs
  let (negated, cs) ←
    if c = '^' then (f.skip? rest).map fun r => (true, r.1 :: r.2) else some (false, c :: rest)
  let (ps, cs) := readHyphens f cs.length [] cs
  match cs with
  | [] => none
  | c :: rest =>
    if ps.isEmpty ∧ c = ']' then
      (f.skip? rest).map fun r => (negated, [⟨.single ']', 0⟩], r.1 :: r.2)
    else some (negated, ps, c :: rest)

/-- The operator that two equal characters stand for. -/
def operator? : Char → Option SetOp
  | '&' => some .inter
  | '-' => some .diff
  | '~' => some .symmDiff
  | _ => none

/-- Reads the content of a class and its closing bracket, given what stands before the last operator
and the parts since. The first argument bounds the number of steps; every step reads a character. -/
def readContent (f : Settings) :
    Nat → Bool → Option (ClassPart × SetOp) → List ClassPart → List Char →
    Option (ClassPart × List Char)
  | 0, _, _, _, _ => none
  | n + 1, negated, before, ps, cs =>
    match f.skip cs with
    | [] => none
    | c :: rest =>
      if c = '[' then
        match readNamed f rest with
        | some (s, after) => readContent f n negated before (⟨s, 0⟩ :: ps) after
        | none => do
          let (inner, qs, after) ← openClass f rest
          let (p, after) ← readContent f n inner none qs after
          readContent f n negated before (p :: ps) after
      else if c = ']' then
        some (closeClass f negated (combine f before (unionParts ps)), rest)
      else match if rest.head? = some c then operator? c else none with
        | some op => readContent f n negated (some (combine f before (unionParts ps), op)) [] rest.tail
        | none => do
          let (p, after) ← readRange f (c :: rest)
          readContent f n negated before (p :: ps) after

/-- Reads a class after its opening bracket. -/
def readClass (f : Settings) (cs : List Char) : Option (ClassPart × List Char) := do
  let (negated, ps, rest) ← openClass f cs
  readContent f (cs.length + 1) negated none ps rest

end ProposalReview.Pattern
