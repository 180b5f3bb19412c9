import ProposalReview.Text.Blank
import ProposalReview.Text.Lines
/-!
The fields of a proposal.

A proposal is free text. A line that begins, after blanks, with a key, blanks and a colon gives a
field; keys are matched in any case of ASCII letters, and other lines are ignored. A field is present
once any line gives it, and its value is the first that is not empty.
-/

namespace ProposalReview

/-- The fields that are recognised. -/
inductive Field where
  | approvalId
  | approvedBy
  | approvedAt
  | approvalReason
  | evidence
  | eval
  | learn
  | successRate
  | drift
  | reproducibility
  | revenueUsdc
  | tokenCostUsdc
  deriving DecidableEq, Repr

namespace Field

/-- The key of a field. -/
def key : Field → String
  | .approvalId => "approval_id"
  | .approvedBy => "approved_by"
  | .approvedAt => "approved_at"
  | .approvalReason => "approval_reason"
  | .evidence => "evidence"
  | .eval => "eval"
  | .learn => "learn"
  | .successRate => "success_rate"
  | .drift => "drift"
  | .reproducibility => "reproducibility"
  | .revenueUsdc => "revenue_usdc"
  | .tokenCostUsdc => "token_cost_usdc"

/-- All fields. -/
def all : List Field :=
  [.approvalId, .approvedBy, .approvedAt, .approvalReason, .evidence, .eval, .learn, .successRate,
   .drift, .reproducibility, .revenueUsdc, .tokenCostUsdc]

/-- The field with a key. -/
def ofKey? (k : String) : Option Field := all.find? fun f => f.key == k

/-- Whether the value is a single token and not the rest of the line. -/
def isToken : Field → Bool
  | .approvalId | .approvedBy => true
  | _ => false

/-- The value of a field, given what follows the colon; it may be empty. -/
def valueIn (f : Field) (rest : List Char) : List Char :=
  if f.isToken then Text.firstToken rest else Text.trim rest

end Field

namespace Proposal

/-- Whether a character may be part of a key. -/
def isKeyChar (c : Char) : Bool := c.isAlpha || c == '_'

/-- The key of a line and what follows its colon, if the line has the form of a field. -/
def keyLine? (line : List Char) : Option (List Char × List Char) :=
  let start := Text.trimStart line
  let key := start.takeWhile isKeyChar
  match Text.trimStart (start.dropWhile isKeyChar) with
  | [] => none
  | c :: rest => if c = ':' ∧ ¬ key.isEmpty then some (key, rest) else none

/-- The field that a line gives, and what follows its colon. -/
def fieldLine? (line : List Char) : Option (Field × List Char) :=
  (keyLine? line).bind fun kr =>
    (Field.ofKey? (String.ofList (kr.1.map Char.toLower))).map fun f => (f, kr.2)

end Proposal

/-- The fields found so far: those present, and the first values that are not empty. -/
structure Fields where
  seen : List Field := []
  values : List (Field × List Char) := []

namespace Fields

/-- Whether a line has given the field. -/
def isPresent (fs : Fields) (f : Field) : Bool := fs.seen.contains f

/-- The value of a field. -/
def value? (fs : Fields) (f : Field) : Option (List Char) := fs.values.lookup f

/-- The fields after one more line. -/
def step (fs : Fields) (line : List Char) : Fields :=
  match Proposal.fieldLine? line with
  | none => fs
  | some (f, rest) =>
    let v := f.valueIn rest
    { seen := if fs.seen.contains f then fs.seen else f :: fs.seen
      values := if (fs.value? f).isSome || v.isEmpty then fs.values else (f, v) :: fs.values }

/-- The fields of a proposal's text. -/
def ofText (text : List Char) : Fields := (Text.lines text).foldl step {}

end Fields

end ProposalReview
