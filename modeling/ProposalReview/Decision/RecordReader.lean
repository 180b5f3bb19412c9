import ProposalReview.Decision.Decision
import ProposalReview.Json.Reader
/-!
Reading a record back from JSON.

The members `destination` and `incident` are checked as they are read, and at most once each. All
other members are collected first; of them the members of a decision must be there once and have the
right form, and the rest is ignored. A fault is of one of three kinds, and the first one met counts.
-/

namespace ProposalReview.Record

/-- Why a text is no record. -/
inductive ReadError where
  /-- The text is not JSON. -/
  | malformed
  /-- The text is JSON of another form. -/
  | wrongForm
  /-- The text ended too early. -/
  | early
  deriving DecidableEq, Repr

/-- The kind of a fault in the text. -/
def ReadError.ofFault (f : Json.Fault) : ReadError := if f.reason.isEnd then .early else .malformed

/-- A step of reading JSON, with its fault as a read error. -/
def lift {α : Type} (r : Except Json.Fault α) : Except ReadError α := r.mapError ReadError.ofFault

/-! ### Forms of values -/

/-- The value of the only member with a key; none if there is none. -/
def unique (key : String) (ms : JsonObject) : Except ReadError (Option Json) :=
  match ms.filter (·.1 == key) with
  | [] => .ok none
  | [m] => .ok (some m.2)
  | _ => .error .wrongForm

/-- The value of a member that must be there. -/
def required (key : String) (ms : JsonObject) : Except ReadError Json := do
  match ← unique key ms with
  | some j => .ok j
  | none => .error .wrongForm

/-- A value of an expected form. -/
def expect {α : Type} (x : Option α) : Except ReadError α :=
  match x with
  | some a => .ok a
  | none => .error .wrongForm

/-- A list of strings. -/
def strings? : Json → Option (List String)
  | .array xs => xs.mapM Json.string?
  | _ => none

/-- A number as a float. -/
def float? : Json → Option Float
  | .number (.integer n) => some (Float.ofInt n)
  | .number (.float x) => some x
  | _ => none

/-- A number as a float, or null. -/
def figure? : Json → Option (Option Float)
  | .null => some none
  | j => (float? j).map some

/-- An action: its word, or an object with its word as only key and nothing inside. -/
def action? : Json → Option Action
  | .string s => Action.ofWord? s
  | .object [(s, .null)] => Action.ofWord? s
  | .object [(s, .object [])] => Action.ofWord? s
  | _ => none

/-- The figure of a member that may be missing. -/
def figureOf (key : String) (ms : JsonObject) : Except ReadError (Option Float) := do
  match ← unique key ms with
  | none => .ok none
  | some j => expect (figure? j)

/-- Key figures: an object, or a list of all six. -/
def kpiOf : Json → Except ReadError Kpi
  | .object ms => do
    pure
      { successRate := ← figureOf "success_rate" ms
        drift := ← figureOf "drift" ms
        reproducibility := ← figureOf "reproducibility" ms
        revenueUsdc := ← figureOf "revenue_usdc" ms
        tokenCostUsdc := ← figureOf "token_cost_usdc" ms
        marginRate := ← figureOf "margin_rate" ms }
  | .array [a, b, c, d, e, f] => do
    pure
      { successRate := ← expect (figure? a)
        drift := ← expect (figure? b)
        reproducibility := ← expect (figure? c)
        revenueUsdc := ← expect (figure? d)
        tokenCostUsdc := ← expect (figure? e)
        marginRate := ← expect (figure? f) }
  | _ => .error .wrongForm

/-- The decision that collected members give; it has no source. -/
def decisionOf (ms : JsonObject) : Except ReadError Decision := do
  pure
    { file := ← expect (← required "file" ms).string?
      source := ⟨[]⟩
      action := ← expect (action? (← required "action" ms))
      reasons := ← expect (strings? (← required "reasons" ms))
      warnings := ← expect (strings? (← required "warnings" ms))
      kpi := ← kpiOf (← required "kpi" ms)
      ageHours := ← expect (float? (← required "age_hours" ms)) }

/-! ### The members of a record -/

/-- What has been read of a record; collected members are in order. -/
structure Draft where
  destination : Option String := none
  incident : Option (Option String) := none
  others : JsonObject := []

/-- Reads a string; any other value is of the wrong form, once the start of it is sound. -/
def readText (cs : List Char) : Except ReadError (String × List Char) :=
  match Json.skipGap cs with
  | '\x22' :: rest => lift (Json.readString rest)
  | c :: rest =>
    if c = '[' ∨ c = '\x7b' then .error .wrongForm
    else do
      let _ ← lift (Json.readValue 1 0 (c :: rest))
      .error .wrongForm
  | [] => .error .early

/-- Reads a string or null. -/
def readOptionalText (cs : List Char) : Except ReadError (Option String × List Char) :=
  match Json.skipGap cs with
  | 'n' :: rest => do
    let rest ← lift (Json.readWord ['u', 'l', 'l'] rest)
    pure (none, rest)
  | rest => do
    let (s, rest) ← readText rest
    pure (some s, rest)

/-- Reads the value of a member after its key. -/
def Draft.readMember (d : Draft) (key : String) (cs : List Char) :
    Except ReadError (Draft × List Char) :=
  if key = "destination" then do
    if d.destination.isSome then throw .wrongForm
    let cs ← lift (Json.readColon cs)
    let (s, cs) ← readText cs
    pure ({ d with destination := some s }, cs)
  else if key = "incident" then do
    if d.incident.isSome then throw .wrongForm
    let cs ← lift (Json.readColon cs)
    let (s, cs) ← readOptionalText cs
    pure ({ d with incident := some s }, cs)
  else do
    let cs ← lift (Json.readColon cs)
    let (j, cs) ← lift (Json.readValue (2 * cs.length + 2) (Json.depthLimit - 1) cs)
    pure ({ d with others := d.others ++ [(key, j)] }, cs)

/-- Reads the members of a record up to its closing brace, which is left. The first argument bounds
the number of members. -/
def readMembers : Nat → Bool → Draft → List Char → Except ReadError (Draft × List Char)
  | 0, _, _, _ => .error .early
  | n + 1, first, d, cs => do
    match ← lift (Json.nextMember first cs) with
    | none => pure (d, Json.skipGap cs)
    | some cs =>
      let (key, cs) ← lift (Json.readString cs)
      let (d, cs) ← d.readMember key cs
      readMembers n false d cs

/-- The record that a draft amounts to. -/
def Draft.finish (d : Draft) : Except ReadError Record := do
  let destination ← expect d.destination
  let decision ← decisionOf d.others
  pure { decision, destination, incident := d.incident.join }

/-- The record that a whole text denotes. -/
def read (cs : List Char) : Except ReadError Record :=
  match Json.skipGap cs with
  | '\x7b' :: rest => do
    let (d, rest) ← readMembers (rest.length + 1) true {} rest
    let r ← d.finish
    lift (Json.readEnd rest.tail)
    pure r
  | '[' :: _ => .error .wrongForm
  | [] => .error .early
  | c :: rest => do
    let _ ← lift (Json.readValue 1 0 (c :: rest))
    .error .wrongForm

/-- The record that a string denotes. -/
def ofString (s : String) : Except ReadError Record := read s.toList

end ProposalReview.Record
