import ProposalReview.Pattern.ClassReader
import ProposalReview.Pattern.Search
/-!
Reading a pattern.

The text is read from left to right. The parts of the branch being read, the branches before it and
the groups around it are kept until they are closed. Settings last until the end of their group. A
pattern that is not well formed, or that nests more than 250 deep, is refused. So are the parts of the
language that this reader does not know: classes of characters by their properties, and words and
classes without Unicode.
-/

namespace ProposalReview.Pattern

/-- A part of a branch. A change of settings is a part that nothing can repeat. -/
structure Part where
  pattern : Pattern
  height : Nat := 0
  repeatable : Bool := true

/-- A group that is still open: the settings around it, the parts before it in its branch, and the
branches before that one. -/
structure OpenGroup where
  settings : Settings
  parts : List Part
  branches : List Part

/-- How far a pattern has been read; lists have the latest element first. -/
structure Progress where
  settings : Settings := {}
  parts : List Part := []
  branches : List Part := []
  groups : List OpenGroup := []
  names : List (List Char) := []

/-- The branch that a list of parts makes, latest first. -/
def branchOf : List Part → Part
  | [] => { pattern := .empty, repeatable := false }
  | [p] => p
  | ps =>
    { pattern := .seqs (ps.reverse.map (·.pattern))
      height := ps.foldl (fun n p => max n p.height) 0 + 1 }

/-- What the branches of a group make, latest first. -/
def choiceOf : List Part → Part
  | [] => { pattern := .empty }
  | [p] => p
  | ps =>
    { pattern := .alts (ps.reverse.map (·.pattern))
      height := ps.foldl (fun n p => max n p.height) 0 + 1 }

/-- Adds a part to the branch being read. -/
def Progress.push (s : Progress) (p : Part) : Progress := { s with parts := p :: s.parts }

/-- Opens a group with settings of its own. -/
def Progress.openGroup (s : Progress) (inner : Settings) : Progress :=
  { s with
    settings := inner
    parts := []
    branches := []
    groups := ⟨s.settings, s.parts, s.branches⟩ :: s.groups }

/-- Closes the group being read. -/
def Progress.closeGroup (s : Progress) : Option Progress :=
  match s.groups with
  | [] => none
  | g :: gs =>
    let body := choiceOf (branchOf s.parts :: s.branches)
    some { s with
      settings := g.settings
      parts := { pattern := body.pattern, height := body.height + 1 } :: g.parts
      branches := g.branches
      groups := gs }

/-- Repeats the latest part; `lazily` is whether a question mark followed the count. -/
def Progress.repeatLast (s : Progress) (least : Nat) (most : Option Nat) (lazily : Bool) :
    Option Progress :=
  match s.parts with
  | [] => none
  | p :: ps =>
    if p.repeatable then
      some { s with
        parts :=
          { pattern := .rounds p.pattern least most (lazily == s.settings.swapGreed)
            height := p.height + 1 } :: ps }
    else none

/-- Whether a character may be in the name of a group, at its start or later. -/
def isNameChar (start : Bool) (c : Char) : Bool :=
  if start then c == '_' || Text.isLetter c
  else c == '_' || c == '.' || c == '[' || c == ']' || Text.isLetterOrNumber c

/-- Opens a named group after the sign that begins its name. -/
def Progress.openNamed (s : Progress) (cs : List Char) : Option (Progress × List Char) :=
  let name := cs.takeWhile (· != '>')
  match name, cs.dropWhile (· != '>') with
  | c :: more, _ :: rest =>
    if isNameChar true c ∧ more.all (isNameChar false) ∧ name ∉ s.names then
      some ({ s with names := name :: s.names }.openGroup s.settings, rest)
    else none
  | _, _ => none

/-- Opens a group with settings, or changes the settings of the group being read. -/
def Progress.openWith (s : Progress) (cs : List Char) : Option (Progress × List Char) := do
  let (f, mark, rest) ← readSettings s.settings [] cs
  if mark = ':' then some (s.openGroup f, rest)
  else if cs.head? = some ')' then none
  else
    some ({ s with settings := f }.push { pattern := .empty, repeatable := false }, rest)

/-- Opens a group after its parenthesis. -/
def Progress.enter (s : Progress) (cs : List Char) : Option (Progress × List Char) :=
  match s.settings.skip cs with
  | '?' :: 'P' :: '<' :: rest => s.openNamed rest
  | '?' :: '<' :: '=' :: _ => none
  | '?' :: '<' :: '!' :: _ => none
  | '?' :: '<' :: rest => s.openNamed rest
  | '?' :: rest => s.openWith rest
  | rest => some (s.openGroup s.settings, rest)

/-- The part that one character stands for. -/
def Settings.charPart (f : Settings) (c : Char) : Part :=
  { pattern := .set (f.cased (.single c)) }

/-- The anchor of a circumflex. -/
def Settings.startAnchor (f : Settings) : Anchor :=
  if f.multiLine then (if f.returnLines then .returnLineStart else .lineStart) else .textStart

/-- The anchor of a dollar sign. -/
def Settings.endAnchor (f : Settings) : Anchor :=
  if f.multiLine then (if f.returnLines then .returnLineEnd else .lineEnd) else .textEnd

/-- The characters that a point stands for. -/
def Settings.dot (f : Settings) : CharSet :=
  if f.dotAll then .compl .none
  else if f.returnLines then .compl (.union (.single '\n') (.single '\r'))
  else .compl (.single '\n')

/-- The part that an escape stands for. -/
def Settings.escapedPart (f : Settings) : Escaped → Part
  | .char c => f.charPart c
  | .set s => { pattern := .set s }
  | .anchor a => { pattern := .anchor a }

/-- Splits a question mark off the start. -/
def takeLazy : List Char → Bool × List Char
  | '?' :: cs => (true, cs)
  | cs => (false, cs)

/-- Repeats the latest part as a sign says, taking in the question mark after it. -/
def Progress.sign (s : Progress) (least : Nat) (most : Option Nat) (cs : List Char) :
    Option (Progress × List Char) :=
  let (lazily, rest) := takeLazy cs
  (s.repeatLast least most lazily).map fun s => (s, rest)

/-- Repeats the latest part as bounds in braces say. -/
def Progress.bounds (s : Progress) (cs : List Char) : Option (Progress × List Char) := do
  let (least, most, rest) ← readBounds s.settings cs
  s.sign least most (s.settings.skip rest)

/-- Reads one part or sign. -/
def Progress.step (s : Progress) (c : Char) (cs : List Char) : Option (Progress × List Char) :=
  match c with
  | '(' => s.enter cs
  | ')' => s.closeGroup.map fun s => (s, cs)
  | '|' => some ({ s with parts := [], branches := branchOf s.parts :: s.branches }, cs)
  | '[' => (readClass s.settings cs).map fun r =>
      (s.push { pattern := .set r.1.set, height := r.1.height }, r.2)
  | '?' => s.sign 0 (some 1) cs
  | '*' => s.sign 0 none cs
  | '+' => s.sign 1 none cs
  | '\x7b' => s.bounds cs
  | '\\' => (readEscape s.settings cs).map fun r => (s.push (s.settings.escapedPart r.1), r.2)
  | '.' => some (s.push { pattern := .set s.settings.dot }, cs)
  | '^' => some (s.push { pattern := .anchor s.settings.startAnchor }, cs)
  | '$' => some (s.push { pattern := .anchor s.settings.endAnchor }, cs)
  | _ => some (s.push (s.settings.charPart c), cs)

/-- Reads the rest of a pattern. The first argument bounds the number of steps; every step reads a
character. -/
def Progress.run : Nat → Progress → List Char → Option Progress
  | 0, _, _ => none
  | n + 1, s, cs =>
    match s.settings.skip cs with
    | [] => some s
    | c :: cs => (s.step c cs).bind fun r => run n r.1 r.2

/-- How deep patterns may nest. -/
def heightLimit : Nat := 250

/-- The pattern that a text denotes; none if it is refused. -/
def read? (text : String) : Option Pattern := do
  let cs := text.toList
  let s ← Progress.run (cs.length + 1) {} cs
  if s.groups.isEmpty then
    let p := choiceOf (branchOf s.parts :: s.branches)
    if p.height ≤ heightLimit then some p.pattern else none
  else none

/-- The pattern that a text denotes; of a text that is refused, it is only said that it was. -/
def compile : Compiler := fun text =>
  match read? text with
  | some p => .ok p
  | none => .error "regex parse error:"

end ProposalReview.Pattern
