import ProposalReview.Decimal.Numeral
import ProposalReview.PolicyGate.Http
/-!
Requests and replies as bytes, for the machine's own exchanges.

This is the part of HTTP that a gate nearby needs: the scheme `http`, a host whose name is in ASCII, one
connection for one request, and no redirections.
-/

namespace ProposalReview

/-! ### Requests -/

/-- Where a request goes. -/
structure HttpAddress where
  host : String
  /-- The number of the service at the host. -/
  service : Nat
  target : String
  deriving DecidableEq, Repr

namespace HttpAddress

/-- The service of addresses that name none. -/
def usualService : Nat := 80

/-- Whether a character ends the host and service of an address. -/
def endsAuthority (c : Char) : Bool := c == '/' || c == '?' || c == '#'

/-- Whether a character may be part of a host's name. -/
def isHostChar (c : Char) : Bool := c.isAlphanum || c == '.' || c == '-' || c == '_'

/-- The service that follows a host, after a colon. -/
def service? : List Char → Option Nat
  | [] => some usualService
  | _ :: ds =>
    if ds.isEmpty then some usualService
    else if ds.all Char.isDigit ∧ Decimal.ofDigits ds < 65536 then some (Decimal.ofDigits ds)
    else none

/-- A byte of a target; blanks and all that is not ASCII are escaped. -/
def targetByte (b : UInt8) : List Char :=
  if 0x20 < b ∧ b < 0x7f then [Char.ofNat b.toNat]
  else ['%', (Nat.digitChar (b.toNat / 16)).toUpper, (Nat.digitChar (b.toNat % 16)).toUpper]

/-- The target that follows host and service. What follows a number sign is not sent. -/
def targetOf (cs : List Char) : String :=
  let cs := cs.takeWhile (· != '#')
  let cs := if cs.head? == some '/' then cs else '/' :: cs
  String.ofList ((Text.encode cs).flatMap targetByte)

/-- The address after the scheme. -/
def ofRest? (cs : List Char) : Option HttpAddress :=
  let authority := cs.takeWhile fun c => !endsAuthority c
  let host := authority.takeWhile (· != ':')
  if host.isEmpty ∨ ¬ host.all isHostChar then none
  else (service? (authority.dropWhile (· != ':'))).map fun service =>
    { host := String.ofList (host.map Char.toLower)
      service
      target := targetOf (cs.dropWhile fun c => !endsAuthority c) }

/-- The address that a URL spells; its scheme is `http` in any case. -/
def ofUrl? (url : String) : Option HttpAddress :=
  match url.toList with
  | h :: t :: t' :: p :: ':' :: '/' :: '/' :: rest =>
    if [h, t, t', p].map Char.toLower = ['h', 't', 't', 'p'] then ofRest? rest else none
  | _ => none

/-- The host as a header names it. -/
def hostHeader (a : HttpAddress) : String :=
  if a.service = usualService then a.host
  else a.host ++ ":" ++ String.ofList (Decimal.natDigits a.service)

end HttpAddress

namespace HttpRequest

/-- Whether a character may be part of a header's value. -/
def isHeaderChar (c : Char) : Bool := c == '\t' || (32 ≤ c.toNat && c.toNat != 127)

/-- Where a request goes; nowhere if its address is none or its header cannot be sent. -/
def address? (r : HttpRequest) : Option HttpAddress :=
  if r.workspace.toList.all isHeaderChar then HttpAddress.ofUrl? r.url else none

/-- A line of a request. -/
def line (s : String) : Bytes := Text.encodeString (s ++ "\r\n")

/-- A request as bytes. -/
def bytes (r : HttpRequest) (address : HttpAddress) : Bytes :=
  let body := Text.encodeString r.body
  line ("POST " ++ address.target ++ " HTTP/1.1")
    ++ line "content-type: application/json"
    ++ line ("x-workspace-id: " ++ r.workspace)
    ++ line "accept: */*"
    ++ line ("host: " ++ address.hostHeader)
    ++ line ("content-length: " ++ String.ofList (Decimal.natDigits body.length))
    ++ line "connection: close"
    ++ line ""
    ++ body

end HttpRequest

/-! ### Replies -/

namespace HttpReply

/-- The head of a reply, as lines, and what follows its blank line; none if that has not come. -/
def splitHead? : List Char → Bytes → Option (List (List Char) × Bytes)
  | _, [] => none
  | line, b :: bs =>
    if b = 0x0a then
      let line := (if line.head? == some '\r' then line.tail else line).reverse
      if line.isEmpty then some ([], bs)
      else (splitHead? [] bs).map fun r => (line :: r.1, r.2)
    else splitHead? (Char.ofNat b.toNat :: line) bs

/-- The status in the first line of a head. -/
def status? : List (List Char) → Option Nat
  | [] => none
  | first :: _ =>
    let digits := ((first.dropWhile (· != ' ')).dropWhile (· == ' ')).takeWhile (· != ' ')
    if digits.length = 3 ∧ digits.all Char.isDigit then some (Decimal.ofDigits digits) else none

/-- The value of a header, whose name is in lower case. -/
def header? (name : String) (head : List (List Char)) : Option (List Char) :=
  head.tail.findSome? fun l =>
    if (l.takeWhile (· != ':')).map Char.toLower = name.toList then
      some (Text.trim (l.dropWhile (· != ':')).tail)
    else none

/-- The value of a digit of base sixteen. -/
def hexValue? (c : Char) : Option Nat :=
  let c := c.toLower
  if c.isDigit then some (Decimal.digitValue c)
  else if 'a' ≤ c ∧ c ≤ 'f' then some (c.toNat - 'a'.toNat + 10)
  else none

/-- The size of a chunk, from the start of its first line. -/
def chunkSize (line : List Char) : Nat :=
  ((line.takeWhile fun c => (hexValue? c).isSome).filterMap hexValue?).foldl (fun n d => n * 16 + d) 0

/-- The first line of some bytes and what follows it; none if its end has not come. -/
def splitLine? : Bytes → Option (List Char × Bytes)
  | [] => none
  | b :: bs =>
    if b = 0x0a then some ([], bs)
    else (splitLine? bs).map fun r => (Char.ofNat b.toNat :: r.1, r.2)

/-- The content of chunks up to the empty one; none before that has come. The first argument bounds
the number of chunks. -/
def chunks? : Nat → Bytes → Option Bytes
  | 0, _ => none
  | n + 1, bs =>
    (splitLine? bs).bind fun (line, rest) =>
      let size := chunkSize line
      if size = 0 then some []
      else if rest.length < size + 2 then none
      else (chunks? n (rest.drop (size + 2))).map (rest.take size ++ ·)

/-- The body that follows a head, given whether the server has closed the connection; none before it
is complete. -/
def body? (closed : Bool) (status : Nat) (head : List (List Char)) (rest : Bytes) : Option Bytes :=
  if status = 204 ∨ status = 304 then some []
  else if header? "transfer-encoding" head = some "chunked".toList then
    chunks? (rest.length + 1) rest
  else match header? "content-length" head with
    | some ds =>
      let length := Decimal.ofDigits ds
      if length ≤ rest.length then some (rest.take length) else none
    | none => if closed then some rest else none

/-- The reply that bytes amount to, given whether the server has closed the connection; none before
it is complete. Replies that only announce another one are passed over, the first argument bounds their
number; and nothing is waited for after a status that means no success. -/
def ofBytes? : Nat → Bool → Bytes → Option HttpReply
  | 0, _, _ => none
  | n + 1, closed, bs => do
    let (head, rest) ← splitHead? [] bs
    let status ← status? head
    if status < 200 then ofBytes? n closed rest
    else
      let reply : HttpReply := { status, body := .error "error reading a body from connection" }
      if ¬ reply.succeeds then pure reply
      else match body? closed status head rest with
        | some body => pure { reply with body := .ok body }
        | none => if closed then pure reply else none

end HttpReply

end ProposalReview
