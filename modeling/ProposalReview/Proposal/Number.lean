import ProposalReview.Decimal.Numeral
import ProposalReview.Text.Blank
/-!
Numbers in proposals.

A number may carry percent signs and may group its digits with single underscores. A ratio written
with a percent sign, or above one, is read as a percentage.
-/

namespace ProposalReview

/-- What a number measures. -/
inductive Scale where
  | ratio
  | magnitude
  deriving DecidableEq, Repr

namespace Proposal

/-- Whether the first character is a digit. -/
def startsWithDigit : List Char → Bool
  | [] => false
  | c :: _ => c.isDigit

/-- Removes the underscores, given whether the character before is a digit. None if an underscore
does not stand between two digits. -/
def ungroup? : Bool → List Char → Option (List Char)
  | _, [] => some []
  | afterDigit, c :: cs =>
    if c = '_' then (if afterDigit && startsWithDigit cs then ungroup? false cs else none)
    else (ungroup? c.isDigit cs).map (c :: ·)

/-- The text of a number without percent signs and outer blanks. -/
def withoutPercent (raw : List Char) : List Char :=
  Text.trim ((Text.trim raw).filter (· != '%'))

/-- The finite value of a number's text, before scaling. -/
def plainNumber? (raw : List Char) : Option Float :=
  match (ungroup? false (withoutPercent raw)).bind Decimal.readFloat? with
  | some x => if x.isFinite then some x else none
  | none => none

/-- The value of a number's text. -/
def number? (scale : Scale) (raw : List Char) : Option Float :=
  (plainNumber? raw).map fun x =>
    match scale with
    | .magnitude => x
    | .ratio => if raw.contains '%' then x / 100.0 else if 1.0 < x then x / 100.0 else x

end Proposal

end ProposalReview
