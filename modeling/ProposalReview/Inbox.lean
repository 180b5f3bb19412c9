import ProposalReview.Filing.Filesystem
/-!
Scanning the inbox.

The proposals are the files directly in the inbox whose names have the extension `md`. They are read
in the order of the bytes of their names.
-/

namespace ProposalReview

/-- A proposal's file as it was read. -/
structure ProposalFile where
  path : Path
  name : String
  modified : Instant
  text : List Char

namespace Inbox

/-- The extension of a proposal. -/
def proposalExtension : Name := Text.encodeString "md"

/-- Whether a name is that of a proposal. -/
def isProposalName (n : Name) : Bool := n.extension? == some proposalExtension

/-- Whether a name comes before another one, or is the same. -/
def nameLe : Name → Name → Bool
  | [], _ => true
  | _ :: _, [] => false
  | a :: as, b :: bs => if a = b then nameLe as bs else decide (a < b)

/-- Puts a name before the first one that does not come before it. -/
def insertName (n : Name) : List Name → List Name
  | [] => [n]
  | k :: ks => if nameLe n k then n :: k :: ks else k :: insertName n ks

/-- Names in the order of their bytes. -/
def sortNames (ns : List Name) : List Name := ns.foldr insertName []

variable {m : Type → Type} [Monad m] [Filesystem m]

/-- The names of a list that are proposals' and lead to files. -/
def proposalNames (inbox : Path) : List Name → m (List Name)
  | [] => pure []
  | n :: ns => do
    if isProposalName n then
      if ← Filesystem.isFile (inbox.child n) then
        let rest ← proposalNames inbox ns
        pure (n :: rest)
      else proposalNames inbox ns
    else proposalNames inbox ns

/-- Reads one proposal. -/
def readProposal (inbox : Path) (n : Name) : ExceptT StoreError m ProposalFile := do
  let path := inbox.child n
  let bytes ← Filesystem.attempt .reading path (Filesystem.content path)
  let modified ← Filesystem.attempt .readingTime path (Filesystem.modified path)
  pure { path, name := Text.decodeString n, modified, text := Text.decode bytes }

/-- Reads proposals in order. -/
def readProposals (inbox : Path) : List Name → ExceptT StoreError m (List ProposalFile)
  | [] => pure []
  | n :: ns => do
    let f ← readProposal inbox n
    let fs ← readProposals inbox ns
    pure (f :: fs)

/-- The proposals in the inbox. -/
def scan (inbox : Path) : ExceptT StoreError m (List ProposalFile) := do
  let names ← Filesystem.attempt .readingInbox inbox (Filesystem.names inbox)
  let names ← (proposalNames inbox names : m (List Name))
  readProposals inbox (sortNames names)

end Inbox

end ProposalReview
