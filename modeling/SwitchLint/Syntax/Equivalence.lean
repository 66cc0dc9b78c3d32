import SwitchLint.Syntax.Basic

/-!
When two expressions count as the same. Positions never matter: `same` is equality of what is left
once all ranges are erased.
-/

namespace SwitchLint

namespace Expr

mutual

/-- The expression with every range erased. -/
def bare : Expr → Expr
  | ident name _ => ident name Span.zero
  | selector base field _ => selector base.bare field.bare Span.zero
  | token kind text _ => token kind text Span.zero
  | node kind children _ => node kind (bareAll children) Span.zero

/-- All expressions of the list with every range erased. -/
def bareAll : List Expr → List Expr
  | [] => []
  | e :: es => e.bare :: bareAll es

end

mutual

/-- Are two expressions the same but for their positions? Parentheses count: `(a)` is not `a`. -/
def same : Expr → Expr → Bool
  | ident a _, ident b _ => a == b
  | selector base field _, selector base' field' _ => same field field' && same base base'
  | token kind text _, token kind' text' _ => kind == kind' && text == text'
  | node kind children _, node kind' children' _ => kind == kind' && sameAll children children'
  | _, _ => false

/-- Are the lists of one length and the same, place by place? -/
def sameAll : List Expr → List Expr → Bool
  | [], [] => true
  | a :: as, b :: bs => same a b && sameAll as bs
  | _, _ => false

end

/-- Two identifiers are compared without regard to the case of ASCII letters, all else by `same`;
identifiers inside other expressions keep their case. -/
def sameIgnoringCase : Expr → Expr → Bool
  | ident a _, ident b _ => a.toList.map Char.toLower == b.toList.map Char.toLower
  | a, b => same a b

end Expr

/-- A way to compare expressions, under a name. No law is asked of it. -/
structure Equivalence where
  name : String
  holds : Expr → Expr → Bool

/-- Syntactic identity. -/
def Equivalence.structural : Equivalence := ⟨"Structural", Expr.same⟩

/-- Syntactic identity, except that lone identifiers may differ in case. -/
def Equivalence.ignoringCase : Equivalence := ⟨"IgnoreCase", Expr.sameIgnoringCase⟩

end SwitchLint
