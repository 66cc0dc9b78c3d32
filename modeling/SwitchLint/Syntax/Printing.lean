import SwitchLint.Syntax.Basic
import SwitchLint.Text.Alphanumeric

/-!
The canonical text of an expression, on one line. Blanks, line breaks and comments of the source play
no part in it: `load( 1,2 )` is written `load(1, 2)`.
-/

namespace SwitchLint

namespace Text

/-- Does the text end in a letter, a digit or an underscore? -/
def endsInWord (cs : List Char) : Bool := (cs.getLast?.map isWordChar).getD false

/-- Does the text begin with a letter, a digit or an underscore? -/
def startsWithWord (cs : List Char) : Bool := (cs.head?.map isWordChar).getD false

/-- Does the text begin with a closing bracket? -/
def startsWithClosing (cs : List Char) : Bool :=
  (cs.head?.map fun c => c == ')' || c == ']' || c == '\x7d').getD false

end Text

namespace Expr

/-- Does a space stand between two neighbouring parts of a composite expression? It follows a comma,
and the colon after the key of an element, and keeps words apart; none stands before a closing
bracket. -/
def spaced (kind : String) (left right : List Char) : Bool :=
  if Text.startsWithClosing right then false
  else if left = [','] then true
  else if left = [':'] then kind == "keyed_element"
  else Text.endsInWord left && Text.startsWithWord right

/-- The parts in order, with spaces where they belong. -/
def joinParts (kind : String) : List (List Char) → List Char
  | [] => []
  | [p] => p
  | p :: q :: ps =>
    p ++ (if spaced kind p q then ' ' :: joinParts kind (q :: ps) else joinParts kind (q :: ps))

/-- The text of a composite expression from the texts of its parts. An operator between two operands
has a space on either side. -/
def assemble (kind : String) (parts : List (List Char)) : List Char :=
  match kind == "binary_expression", parts with
  | true, [left, operator, right] => left ++ ' ' :: (operator ++ ' ' :: right)
  | _, parts => joinParts kind parts

mutual

/-- The canonical text. -/
def chars : Expr → List Char
  | ident name _ => name.toList
  | selector base field _ => base.chars ++ '.' :: field.chars
  | token _ text _ => text.toList
  | node kind children _ => assemble kind (charsOfAll children)

/-- The canonical texts of all expressions of the list. -/
def charsOfAll : List Expr → List (List Char)
  | [] => []
  | e :: es => e.chars :: charsOfAll es

end

/-- The canonical text. -/
def text (e : Expr) : String := String.ofList e.chars

end Expr

end SwitchLint
