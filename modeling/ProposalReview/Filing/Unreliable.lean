import ProposalReview.Filing.World
/-!
A world in which calls on the files fail for other reasons than what stands in the tree.

Such a reason is a disk that is full, a right that is missing, or a device that ends at a directory. What
goes wrong is given call by call and may be anything, so whatever holds for all troubles holds on any
number of devices. A call with trouble is refused; a write or a copy may instead stop half-way, and then
the file is there with the first bytes only.
-/

namespace ProposalReview

/-- What goes wrong with a call. -/
inductive Trouble where
  /-- The call is refused. -/
  | refused (cause : FileFault)
  /-- A call that writes stops after some bytes. Any other call is refused. -/
  | stopped (length : Nat) (cause : FileFault)
  deriving DecidableEq, Repr

/-- The fault that a trouble is reported as. -/
def Trouble.cause : Trouble → FileFault
  | .refused cause => cause
  | .stopped _ cause => cause

/-- The state of a world with troubles. -/
structure UnreliableWorld extends World where
  /-- What goes wrong with the calls to come, one after another; nothing with those after the last. -/
  troubles : List (Option Trouble) := []

namespace UnreliableWorld

/-- Makes a call, or what a trouble makes of it if there is one. -/
def call {α : Type} (x : StateM World α) (spoilt : Trouble → StateM World α) :
    StateM UnreliableWorld α := fun u =>
  let r := match u.troubles with
    | some trouble :: _ => spoilt trouble u.toWorld
    | _ => x u.toWorld
  (r.1, { toWorld := r.2, troubles := u.troubles.tail })

/-- Does what has nothing to do with the files. -/
def outside {α : Type} (x : StateM World α) : StateM UnreliableWorld α := fun u =>
  let r := x u.toWorld
  (r.1, { u with toWorld := r.2 })

/-- A call that is refused. -/
def refuse {α : Type} (trouble : Trouble) : StateM World (Except FileFault α) :=
  pure (.error trouble.cause)

/-- A call that writes and is refused or stops, given how so many bytes are written. -/
def interrupt (writeFirst : Nat → StateM World (Except FileFault Unit)) :
    Trouble → StateM World (Except FileFault Unit)
  | .refused cause => pure (.error cause)
  | .stopped length cause => do
    match ← writeFirst length with
    | .ok _ => pure (.error cause)
    | .error own => pure (.error own)

instance : Filesystem (StateM UnreliableWorld) where
  makeDirectory p := call (Filesystem.makeDirectory p) refuse
  isDirectory p := call (Filesystem.isDirectory p) fun _ => pure false
  isFile p := call (Filesystem.isFile p) fun _ => pure false
  isPresent p := call (Filesystem.isPresent p) fun _ => pure false
  names p := call (Filesystem.names p) refuse
  content p := call (Filesystem.content p) refuse
  modified p := call (Filesystem.modified p) refuse
  write p bytes :=
    call (Filesystem.write p bytes) (interrupt fun n => Filesystem.write p (bytes.take n))
  rename source dest := call (Filesystem.rename source dest) refuse
  copy source dest :=
    call (Filesystem.copy source dest) (interrupt fun n => World.change fun w => do
      w.tree.write dest ((← w.tree.copied source dest).take n) w.now)
  remove p := call (Filesystem.remove p) refuse

end UnreliableWorld

end ProposalReview
