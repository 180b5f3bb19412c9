import ProposalReview.Filing.Filesystem
import ProposalReview.Filing.Tree
import ProposalReview.PolicyGate.Wire
import Std.Async.DNS
import Std.Async.TCP
import Std.Async.Timer
import Std.Time
/-!
The machine that the program runs on: its files, its clock and its network.
-/

namespace ProposalReview.Machine

/-! ### Files -/

/-- A system's own words for an error, with its number. -/
def systemText (code : UInt32) (details : String) : String :=
  details ++ " (os error " ++ toString code ++ ")"

/-- The fault that a system error stands for. -/
def faultOf : IO.Error → FileFault
  | .noFileOrDirectory _ _ _ => .notFound
  | .alreadyExists _ _ _ => .alreadyExists
  | .inappropriateType _ code details =>
    if code = 20 then .notDirectory
    else if code = 21 then .isDirectory
    else .other (systemText code details)
  | .unsatisfiedConstraints _ _ => .notEmpty
  | .resourceBusy _ _ => .busy
  | .invalidArgument _ code details =>
    if code = 36 then .nameTooLong
    else if code = 40 then .tooManyLinks
    else if code = 22 then .invalidArgument
    else .other (systemText code details)
  | .unsupportedOperation code details =>
    if code = 18 then .crossesDevices else .other (systemText code details)
  | .permissionDenied _ code details => .other (systemText code details)
  | .resourceExhausted _ code details => .other (systemText code details)
  | e => .other (toString e)

/-- A path as the machine's operations take it. Names that are not UTF-8 cannot be given to them. -/
def nativePath (p : Path) : IO String :=
  match String.fromUTF8? ⟨p.bytes.toArray⟩ with
  | some s => if s.contains '\x00' then throw (.userError FileFault.zeroByte.text) else pure s
  | none => throw (.userError "file name is not UTF-8")

/-- An operation on a path with its fault. -/
def faulting {α : Type} (p : Path) (f : String → IO α) : IO (Except FileFault α) := do
  try
    let a ← f (← nativePath p)
    pure (.ok a)
  catch e => pure (.error (faultOf e))

/-- What is known of the file that a path leads to. -/
def metadata (s : String) : IO IO.FS.Metadata := do
  let real ← IO.FS.realPath s
  real.metadata

/-- Whether a path leads to something of a kind. -/
def isOfKind (p : Path) (kind : IO.FS.FileType → Bool) : IO Bool := do
  match ← faulting p metadata with
  | .ok m => pure (kind m.type)
  | .error _ => pure false

/-- The names in a directory. -/
def names (s : String) : IO (List Name) := do
  let real ← IO.FS.realPath s
  let entries ← real.readDir
  pure (entries.toList.map fun e => Text.encodeString e.fileName)

/-- The content of a file that is to be copied. -/
def regularContent (s : String) : IO ByteArray := do
  let m ← metadata s
  if m.type == .file then IO.FS.readBinFile s else throw (.userError Tree.notRegular.text)

instance : Filesystem IO where
  makeDirectory p := faulting p fun s => IO.FS.createDir s
  isDirectory p := isOfKind p (· == .dir)
  isFile p := isOfKind p (· == .file)
  isPresent p := isOfKind p fun _ => true
  names p := faulting p names
  content p := faulting p fun s => do pure (← IO.FS.readBinFile s).toList
  modified p := faulting p fun s => do
    let m ← metadata s
    pure ⟨m.modified.sec, m.modified.nsec.toNat⟩
  write p bytes := faulting p fun s => IO.FS.writeBinFile s ⟨bytes.toArray⟩
  rename source dest := faulting source fun s => do IO.FS.rename s (← nativePath dest)
  copy source dest := do
    match ← faulting source regularContent with
    | .error cause => pure (.error cause)
    | .ok bytes => faulting dest fun s => IO.FS.writeBinFile s bytes
  remove p := faulting p fun s => IO.FS.removeFile s

/-! ### Time -/

/-- How many seconds local time is ahead of UTC at an instant, zero if the local zone is unknown. -/
def localOffset (t : Std.Time.Timestamp) : IO Int := do
  try
    let rules ← Std.Time.Database.defaultGetLocalZoneRules
    pure (rules.timezoneAt t).offset.second.val
  catch _ => pure 0

/-- The present, with local time. -/
def now : IO RunClock := do
  let t ← Std.Time.Timestamp.now
  let nanos := t.toNanosecondsSinceUnixEpoch.val
  pure { seconds := nanos / 1000000000, nanos := (nanos % 1000000000).toNat, offset := ← localOffset t }

/-! ### Network -/

open Std.Async

/-- A machine's address with the number of a service. -/
def socketAddress (ip : Std.Net.IPAddr) (service : Nat) : Std.Net.SocketAddress :=
  match ip with
  | .v4 addr => .v4 ⟨addr, service.toUInt16⟩
  | .v6 addr => .v6 ⟨addr, service.toUInt16⟩

/-- Receives until the reply is complete or the server closes the connection. The first argument
bounds the number of pieces. -/
def receive (client : TCP.Socket.Client) : Nat → Bytes → Async (Except String HttpReply)
  | 0, _ => pure (.error "reply too long")
  | n + 1, before => do
    match ← client.recv? 65536 with
    | some piece =>
      let bytes := before ++ piece.toList
      match HttpReply.ofBytes? bytes.length false bytes with
      | some reply => pure (.ok reply)
      | none => receive client n bytes
    | none =>
      match HttpReply.ofBytes? before.length true before with
      | some reply => pure (.ok reply)
      | none => pure (.error "incomplete reply")

/-- Exchanges a request for a reply over a new connection. -/
def exchangeOnce (request : HttpRequest) (address : HttpAddress) : Async (Except String HttpReply) := do
  let ips ← DNS.getAddrInfo address.host ""
  match ips.toList with
  | [] => pure (.error "unknown host")
  | ip :: _ =>
    let client ← TCP.Socket.Client.mk
    client.connect (socketAddress ip address.service)
    client.send ⟨(request.bytes address).toArray⟩
    receive client 4096 []

/-- The end of a deadline. -/
def timeout (deadline : Span) : Async (Except String HttpReply) := do
  sleep (Std.Time.Millisecond.Offset.ofNat (min (deadline.totalNanos / 1000000) (Nat.pow 2 40)))
  pure (.error "operation timed out")

/-- Exchanges a request for a reply within a deadline. -/
def exchange : HttpExchange IO := fun deadline request => do
  match request.address? with
  | none => pure (.error "builder error")
  | some address =>
    try
      (Async.race (exchangeOnce request address) (timeout deadline)).block
    catch e => pure (.error (toString e))

end ProposalReview.Machine
