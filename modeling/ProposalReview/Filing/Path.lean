import ProposalReview.Text.Utf8
/-!
Paths of the file system.

A path is a sequence of bytes, its names parted by slashes. Empty names and single dots between names
mean nothing. The base name of a path is its last name, unless that is a double dot; the extension of
a base name is what follows its last dot, unless that dot begins the name.
-/

namespace ProposalReview

/-- The byte that parts names. -/
def slash : UInt8 := 0x2f

/-- The byte that begins an extension. -/
def dot : UInt8 := 0x2e

/-- A name in a directory. -/
abbrev Name := Bytes

/-- A path as it was given. -/
structure Path where
  bytes : Bytes
  deriving DecidableEq, Repr

namespace Path

/-- The path that a string spells. -/
def ofString (s : String) : Path := ⟨Text.encodeString s⟩

/-- The path for display; bytes that are no character show as U+FFFD. -/
def display (p : Path) : String := Text.decodeString p.bytes

/-- Whether the path is empty. -/
def isEmpty (p : Path) : Bool := p.bytes.isEmpty

/-- Whether the path starts at the root. -/
def isAbsolute (p : Path) : Bool := p.bytes.head? == some slash

/-- Splits bytes at slashes. -/
def splitSlash : Bytes → List Name
  | [] => [[]]
  | b :: bs =>
    if b = slash then [] :: splitSlash bs
    else match splitSlash bs with
      | [] => [[b]]
      | n :: ns => (b :: n) :: ns

/-- The name for the directory itself. -/
def hereName : Name := [dot]

/-- The name for the parent directory. -/
def parentName : Name := [dot, dot]

/-- The names of a path, without those that mean nothing. -/
def names (p : Path) : List Name := (splitSlash p.bytes).filter fun n => n ≠ [] ∧ n ≠ hereName

/-- The path's last name, unless it has none or that name is a double dot. -/
def baseName? (p : Path) : Option Name :=
  match p.names.getLast? with
  | some n => if n = parentName then none else some n
  | none => none

/-- A path followed by another one; an absolute one replaces it. -/
def join (p q : Path) : Path :=
  if q.isAbsolute then q
  else match p.bytes.getLast? with
    | none => q
    | some b => if b = slash then ⟨p.bytes ++ q.bytes⟩ else ⟨p.bytes ++ slash :: q.bytes⟩

/-- A path followed by a name. -/
def child (p : Path) (n : Name) : Path := p.join ⟨n⟩

/-- Names parted by slashes. -/
def joinNames : List Name → Bytes
  | [] => []
  | [n] => n
  | n :: m :: ns => n ++ slash :: joinNames (m :: ns)

/-- The path of a list of names, from the root or not. -/
def ofNames (absolute : Bool) (ns : List Name) : Path :=
  ⟨if absolute then slash :: joinNames ns else joinNames ns⟩

end Path

/-- The name up to its last dot and what follows it, unless there is no dot after the first byte. -/
def Name.split? (n : Name) : Option (Name × Name) :=
  let after := (n.reverse.takeWhile (· != dot)).reverse
  let before := n.take (n.length - after.length - 1)
  if n = Path.parentName ∨ after.length = n.length ∨ before = [] then none
  else some (before, after)

/-- The extension of a name. -/
def Name.extension? (n : Name) : Option Name := n.split?.map (·.2)

/-- The name without its extension. -/
def Name.stem (n : Name) : Name := (n.split?.map (·.1)).getD n

end ProposalReview
