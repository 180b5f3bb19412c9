/-!
JSON values.

An object keeps its members in order and keeps repeated keys; of equal keys the last one counts.
-/

namespace ProposalReview

/-- A number is an integer or a float; the two are told apart by how they are written. -/
inductive JsonNumber where
  | integer (value : Int)
  | float (value : Float)
  deriving DecidableEq

/-- A JSON value. -/
inductive Json where
  | null
  | bool (value : Bool)
  | number (value : JsonNumber)
  | string (value : String)
  | array (items : List Json)
  | object (members : List (String × Json))

/-- The members of an object. -/
abbrev JsonObject := List (String × Json)

namespace Json

/-- An integer as a value. -/
def int (n : Int) : Json := .number (.integer n)

/-- A float as a value. -/
def float (x : Float) : Json := .number (.float x)

/-- A list of strings as a value. -/
def strings (ss : List String) : Json := .array (ss.map .string)

/-- An optional value, null if absent. -/
def ofOption {α : Type} (f : α → Json) : Option α → Json
  | none => .null
  | some a => f a

/-- The members if the value is an object. -/
def object? : Json → Option JsonObject
  | .object ms => some ms
  | _ => none

/-- The truth value if the value is one. -/
def bool? : Json → Option Bool
  | .bool b => some b
  | _ => none

/-- The string if the value is one. -/
def string? : Json → Option String
  | .string s => some s
  | _ => none

end Json

namespace JsonObject

/-- The value of the last member with a key. -/
def last? (key : String) (ms : JsonObject) : Option Json :=
  ms.foldl (fun found m => if m.1 = key then some m.2 else found) none

/-- Adds a member, in the place of any earlier one with its key. -/
def put (ms : JsonObject) (m : String × Json) : JsonObject := ms.filter (·.1 ≠ m.1) ++ [m]

/-- The members with only the last of equal keys kept. -/
def settled (ms : JsonObject) : JsonObject := ms.foldl put []

end JsonObject

mutual

/-- A value in which every object has only the last of equal keys. -/
def Json.settled : Json → Json
  | .array xs => .array (Json.settledItems xs)
  | .object ms => .object (JsonObject.settled (Json.settledMembers ms))
  | j => j

/-- The items of an array, each settled. -/
def Json.settledItems : List Json → List Json
  | [] => []
  | x :: xs => x.settled :: Json.settledItems xs

/-- The members of an object, each value settled. -/
def Json.settledMembers : JsonObject → JsonObject
  | [] => []
  | (k, x) :: ms => (k, x.settled) :: Json.settledMembers ms

end

end ProposalReview
