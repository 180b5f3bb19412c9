import ProposalReview.Filing.Filesystem
import ProposalReview.Filing.Tree
import ProposalReview.PolicyGate.Verdict
/-!
A world that a run can take place in: a tree of files, the time that files are written at, and the
requests that a policy gate has received.

In it a call on the files fails just when the tree does not allow it: some name of a path is missing or
leads to the wrong kind of thing, or something stands where a file or a directory should go. There is one
device with room for everything, and all of it may be read and written. Calls fail for other reasons in an
`UnreliableWorld`.
-/

namespace ProposalReview

/-- The state of a world. -/
structure World where
  tree : Tree := {}
  now : Instant := ⟨0, 0⟩
  /-- The requests received, the first one first. -/
  requests : List GateRequest := []

namespace World

/-- Looks at the tree. -/
def look {α : Type} (f : Tree → α) : StateM World α := fun w => (f w.tree, w)

/-- Changes the tree, unless that fails. -/
def change (f : World → Except FileFault Tree) : StateM World (Except FileFault Unit) := fun w =>
  match f w with
  | .ok t => (.ok (), { w with tree := t })
  | .error cause => (.error cause, w)

instance : Filesystem (StateM World) where
  makeDirectory p := change fun w => w.tree.makeDirectory p
  isDirectory p := look fun t => t.isDirectory p
  isFile p := look fun t => t.isFile p
  isPresent p := look fun t => t.isPresent p
  names p := look fun t => t.names p
  content p := look fun t => t.content p
  modified p := look fun t => t.modified p
  write p bytes := change fun w => w.tree.write p bytes w.now
  rename source dest := change fun w => w.tree.rename source dest
  copy source dest := change fun w => w.tree.copy source dest w.now
  remove p := change fun w => w.tree.remove p

end World

/-- A policy gate: what it answers to a request, given those before it. It may answer anything. -/
abbrev PolicyGate := List GateRequest → GateRequest → Except GateError JsonObject

/-- Asks a gate, which keeps the request. -/
def PolicyGate.review (g : PolicyGate) (r : GateRequest) : StateM World (Except GateError JsonObject) :=
  fun w => (g w.requests r, { w with requests := w.requests ++ [r] })

/-- The gate that gives prepared answers in turn, and then can no longer be reached. -/
def PolicyGate.scripted (answers : List (Except GateError JsonObject)) : PolicyGate := fun before _ =>
  answers.getD before.length (.error (.unreachable "script exhausted"))

end ProposalReview
