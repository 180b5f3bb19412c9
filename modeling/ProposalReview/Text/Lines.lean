/-!
Lines of a text. A line ends at LF or at CR LF; a CR anywhere else is an ordinary character.
-/

namespace ProposalReview.Text

/-- The pieces of a text between its line feeds; a text has one piece more than line feeds. -/
def pieces : List Char → List (List Char)
  | [] => [[]]
  | c :: cs =>
    if c = '\n' then [] :: pieces cs
    else match pieces cs with
      | [] => [[c]]
      | p :: ps => (c :: p) :: ps

/-- A piece without one carriage return at its end. -/
def dropReturn : List Char → List Char
  | [] => []
  | [c] => if c = '\r' then [] else [c]
  | c :: d :: cs => c :: dropReturn (d :: cs)

/-- Every piece but the last was ended by a line feed and loses the carriage return before it. -/
def endLines : List (List Char) → List (List Char)
  | [] => []
  | [p] => [p]
  | p :: q :: ps => dropReturn p :: endLines (q :: ps)

/-- The lines of a text, without their ends. -/
def lines (cs : List Char) : List (List Char) := endLines (pieces cs)

end ProposalReview.Text
