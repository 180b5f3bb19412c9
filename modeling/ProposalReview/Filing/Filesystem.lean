import ProposalReview.Filing.Fault
import ProposalReview.Calendar.Instant
/-!
The operations on files that a run needs, in any monad that provides them.

The rules of the program are written once over this interface; they run on a tree of files, about
which things can be proved, and on the files of the machine.
-/

namespace ProposalReview

/-- Operations on files. -/
class Filesystem (m : Type → Type) where
  /-- Makes one directory in an existing one. -/
  makeDirectory : Path → m (Except FileFault Unit)
  /-- Whether a path leads to a directory. -/
  isDirectory : Path → m Bool
  /-- Whether a path leads to a file. -/
  isFile : Path → m Bool
  /-- Whether a path leads to anything. -/
  isPresent : Path → m Bool
  /-- The names in a directory, in any order. -/
  names : Path → m (Except FileFault (List Name))
  /-- The content of a file. -/
  content : Path → m (Except FileFault Bytes)
  /-- When a file was last written. -/
  modified : Path → m (Except FileFault Instant)
  /-- Writes a file, new or in place of its old content. -/
  write : Path → Bytes → m (Except FileFault Unit)
  /-- Moves a file, in place of what stands at its destination. -/
  rename : Path → Path → m (Except FileFault Unit)
  /-- Copies a file to a path, new or in place of the old content there. -/
  copy : Path → Path → m (Except FileFault Unit)
  /-- Removes a file. -/
  remove : Path → m (Except FileFault Unit)

namespace Filesystem

variable {m : Type → Type} [Monad m]

/-- Does something with a path, with its fault as a store error. -/
def attempt {α : Type} (action : StoreAction) (p : Path) (x : m (Except FileFault α)) :
    ExceptT StoreError m α :=
  ExceptT.mk do
    match ← x with
    | .ok a => pure (.ok a)
    | .error cause => pure (.error ⟨action, p, cause⟩)

variable [Filesystem m]

/-- A fault counts for nothing if the directory is there all the same. -/
def unlessDirectory (p : Path) (cause : FileFault) : m (Except FileFault Unit) := do
  if ← isDirectory p then pure (.ok ()) else pure (.error cause)

/-- Makes a directory unless it is there. -/
def makeOne (p : Path) : m (Except FileFault Unit) := do
  match ← makeDirectory p with
  | .ok _ => pure (.ok ())
  | .error cause => unlessDirectory p cause

/-- Makes the first directory of a list, and before it the later ones as far as they are missing. -/
def makeChain : List Path → m (Except FileFault Unit)
  | [] => pure (.ok ())
  | p :: above => do
    match ← makeDirectory p with
    | .ok _ => pure (.ok ())
    | .error .notFound =>
      match ← makeChain above with
      | .error cause => pure (.error cause)
      | .ok _ => makeOne p
    | .error cause => unlessDirectory p cause

/-- Moves a file; to another device it is copied, and then removed. -/
def moveFile (source dest : Path) : ExceptT StoreError m Unit :=
  ExceptT.mk do
    match ← rename source dest with
    | .ok _ => pure (.ok ())
    | .error .crossesDevices =>
      let moved : ExceptT StoreError m Unit := do
        attempt .copying source (copy source dest)
        attempt .removing source (remove source)
      moved.run
    | .error cause => pure (.error ⟨.moving, source, cause⟩)

end Filesystem

/-- The directories above a path, from the nearest to the first. -/
def Path.above (p : Path) : List Path :=
  (List.range p.names.length).reverse.tail.map fun n =>
    Path.ofNames p.isAbsolute (p.names.take (n + 1))

/-- Makes a directory and those above it as far as they are missing. -/
def Filesystem.makeDirectories {m : Type → Type} [Monad m] [Filesystem m] (p : Path) :
    m (Except FileFault Unit) :=
  if p.isEmpty then pure (.ok ()) else makeChain (p :: p.above)

end ProposalReview
