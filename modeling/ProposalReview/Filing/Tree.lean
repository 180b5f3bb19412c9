import ProposalReview.Calendar.Instant
import ProposalReview.Filing.Fault
/-!
A tree of files, directories and symbolic links.

The tree lists what stands at each location below its root; the root is always a directory. It is the
working directory as well, so a relative path leads to where the absolute path of its names leads. All of
the tree is on one device, and a file has one name only: there are no hard links. Operations take a path,
follow its links and give the tree that results. They fail for what stands in the tree or for what the
path is, and an operation that fails leaves the tree as it was.
-/

namespace ProposalReview

/-- What can stand at a location. -/
inductive Entry where
  | file (content : Bytes) (modified : Instant)
  | directory
  | link (target : Path)
  deriving DecidableEq, Repr

/-- The names that lead from the root to a place. -/
abbrev Location := List Name

/-- A tree of files. -/
structure Tree where
  entries : List (Location × Entry) := []

namespace Tree

/-- What stands at a location. -/
def entry? (t : Tree) (l : Location) : Option Entry :=
  if l = [] then some .directory else t.entries.lookup l

/-- The tree without what stands at a location. -/
def erase (t : Tree) (l : Location) : Tree := ⟨t.entries.filter (·.1 ≠ l)⟩

/-- The tree with an entry at a location, in place of any other. -/
def put (t : Tree) (l : Location) (e : Entry) : Tree := ⟨(l, e) :: (t.erase l).entries⟩

/-- The names in the directory at a location. -/
def namesIn (t : Tree) (l : Location) : List Name :=
  t.entries.filterMap fun e =>
    if e.1.dropLast = l then e.1.getLast? else none

/-- A location carried along when what stands at `source` goes to `dest`. -/
def carried (source dest l : Location) : Location :=
  if source.isPrefixOf l then dest ++ l.drop source.length else l

/-- The tree after everything at and below `source` has gone to `dest`. -/
def relocate (t : Tree) (source dest : Location) : Tree :=
  ⟨(t.erase dest).entries.map fun e => (carried source dest e.1, e.2)⟩

/-! ### From paths to locations -/

end Tree

/-- The names of a path that are walked along: single dots count, and a slash at the end is one. -/
def Path.steps (p : Path) : List Name :=
  (Path.splitSlash p.bytes).filter (· ≠ []) ++
    (if p.bytes.getLast? = some slash then [Path.hereName] else [])

/-- The longest name, in bytes. -/
def nameLimit : Nat := 255

/-- The length that no path reaches, in bytes. -/
def pathLimit : Nat := 4096

/-- Checks that a path is one that the system takes. -/
def Path.check (p : Path) : Except FileFault Unit :=
  if p.bytes.contains 0 then .error .zeroByte
  else if p.isEmpty then .error .notFound
  else if pathLimit ≤ p.bytes.length then .error .nameTooLong
  else .ok ()

namespace Tree

/-- Where a walk came to: its end, or a link that leads on from another place. -/
inductive Stop where
  | atEnd (l : Location)
  | leap (base : Location) (steps : List Name)

/-- Walks from a directory along names up to the first link. A link as the last name is the end of
the walk unless it is to be followed. Nothing need stand at the end. -/
def walk (t : Tree) (follow : Bool) : Location → List Name → Except FileFault Stop
  | l, [] => .ok (.atEnd l)
  | l, n :: rest =>
    if n = Path.hereName then t.walk follow l rest
    else if n = Path.parentName then t.walk follow l.dropLast rest
    else if nameLimit < n.length then .error .nameTooLong
    else
      let here := l ++ [n]
      match t.entry? here with
      | none => if rest = [] then .ok (.atEnd here) else .error .notFound
      | some .directory => t.walk follow here rest
      | some (.file _ _) => if rest = [] then .ok (.atEnd here) else .error .notDirectory
      | some (.link target) =>
        if rest = [] ∧ ¬ follow then .ok (.atEnd here)
        else .ok (.leap (if target.isAbsolute then [] else l) (target.steps ++ rest))

/-- Walks along names and through a bounded number of links. -/
def walkLinks (t : Tree) (follow : Bool) : Nat → Location → List Name → Except FileFault Location
  | links, l, ns =>
    match t.walk follow l ns with
    | .error e => .error e
    | .ok (.atEnd l) => .ok l
    | .ok (.leap base ns) =>
      match links with
      | 0 => .error .tooManyLinks
      | links + 1 => t.walkLinks follow links base ns

/-- How many links a walk may go through. -/
def linkLimit : Nat := 40

/-- The location that a path leads to; nothing need stand there. -/
def locate (t : Tree) (p : Path) : Except FileFault Location := do
  p.check
  t.walkLinks true linkLimit [] p.steps

/-- The location of a path's last name, whose own link is not followed; none for a path that ends in
a dot or a double dot. -/
def locateName (t : Tree) (p : Path) : Except FileFault (Option Location) := do
  p.check
  let names := (Path.splitSlash p.bytes).filter (· ≠ [])
  let parent ← t.walkLinks true linkLimit [] (names.dropLast ++ [Path.hereName])
  match names.getLast? with
  | none => pure none
  | some n =>
    if n = Path.hereName ∨ n = Path.parentName then pure none
    else if nameLimit < n.length then throw .nameTooLong
    else pure (some (parent ++ [n]))

/-- What stands where a path leads. -/
def find (t : Tree) (p : Path) : Except FileFault Entry := do
  match t.entry? (← t.locate p) with
  | some e => pure e
  | none => throw .notFound

/-! ### Operations -/

/-- Whether anything stands where a path leads. -/
def isPresent (t : Tree) (p : Path) : Bool := (t.find p).isOk

/-- Whether a path leads to a directory. -/
def isDirectory (t : Tree) (p : Path) : Bool :=
  match t.find p with
  | .ok .directory => true
  | _ => false

/-- Whether a path leads to a file. -/
def isFile (t : Tree) (p : Path) : Bool :=
  match t.find p with
  | .ok (.file _ _) => true
  | _ => false

/-- The names in a directory, in no particular order. -/
def names (t : Tree) (p : Path) : Except FileFault (List Name) := do
  let l ← t.locate p
  match t.entry? l with
  | some .directory => pure (t.namesIn l)
  | some _ => throw .notDirectory
  | none => throw .notFound

/-- The content of a file. -/
def content (t : Tree) (p : Path) : Except FileFault Bytes := do
  match ← t.find p with
  | .file bytes _ => pure bytes
  | _ => throw .isDirectory

/-- When a file was last written. Directories have no time of their own here. -/
def modified (t : Tree) (p : Path) : Except FileFault Instant := do
  match ← t.find p with
  | .file _ time => pure time
  | _ => pure ⟨0, 0⟩

/-- Makes a directory in an existing one. -/
def makeDirectory (t : Tree) (p : Path) : Except FileFault Tree := do
  match ← t.locateName p with
  | none => throw .alreadyExists
  | some l => if (t.entry? l).isSome then throw .alreadyExists else pure (t.put l .directory)

/-- Writes a file, new or in place of its old content. -/
def write (t : Tree) (p : Path) (bytes : Bytes) (now : Instant) : Except FileFault Tree := do
  let l ← t.locate p
  if p.bytes.getLast? = some slash then throw .isDirectory
  match t.entry? l with
  | some .directory => throw .isDirectory
  | _ => pure (t.put l (.file bytes now))

/-- Whether something that is (or is not) a directory may take the place of an entry. -/
def checkReplace (t : Tree) (isDir : Bool) (dest : Location) : Except FileFault Unit :=
  match t.entry? dest with
  | none => .ok ()
  | some .directory =>
    if ¬ isDir then .error .isDirectory
    else if (t.namesIn dest).isEmpty then .ok ()
    else .error .notEmpty
  | some _ => if isDir then .error .notDirectory else .ok ()

/-- Moves what stands at a path to another path, in place of what stands there. A link is moved
itself. Nothing can move into itself, and only directories have names with a slash at the end. -/
def rename (t : Tree) (source dest : Path) : Except FileFault Tree := do
  let fromPlace ← t.locateName source
  let toPlace ← t.locateName dest
  match fromPlace, toPlace with
  | some s, some d =>
    match t.entry? s with
    | none => throw .notFound
    | some e =>
      let isDir := e == .directory
      if ¬ isDir ∧ (source.bytes.getLast? = some slash ∨ dest.bytes.getLast? = some slash) then
        throw .notDirectory
      else if s = d then pure t
      else if s.isPrefixOf d then throw .invalidArgument
      else if d.isPrefixOf s then throw .notEmpty
      else
        t.checkReplace isDir d
        pure (t.relocate s d)
  | _, _ => throw .busy

/-- What is said of something to be copied that is no file. -/
def notRegular : FileFault :=
  .other "the source path is neither a regular file nor a symlink to a regular file"

/-- The bytes that are copied from one path to another. The old content at the destination goes before
anything is read, so a file that is copied to itself is empty afterwards. -/
def copied (t : Tree) (source dest : Path) : Except FileFault Bytes := do
  match ← t.find source with
  | .file bytes _ => pure (if (t.locate source).toOption = (t.locate dest).toOption then [] else bytes)
  | _ => throw notRegular

/-- Copies a file to a path. -/
def copy (t : Tree) (source dest : Path) (now : Instant) : Except FileFault Tree := do
  t.write dest (← t.copied source dest) now

/-- Removes what stands at a path, unless that is a directory. A link is removed itself. -/
def remove (t : Tree) (p : Path) : Except FileFault Tree := do
  match ← t.locateName p with
  | none => throw .isDirectory
  | some l =>
    match t.entry? l with
    | none => throw .notFound
    | some .directory => throw .isDirectory
    | some _ =>
      if p.bytes.getLast? = some slash then throw .notDirectory else pure (t.erase l)

end Tree

end ProposalReview
