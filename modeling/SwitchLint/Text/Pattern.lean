/-!
Regular expressions over characters, matched by derivatives. `longest` measures the longest
beginning of a text that a pattern matches.
-/

namespace SwitchLint.Text

/-- A regular expression; `one p` matches a single character that satisfies `p`. -/
inductive Pattern where
  | never
  | empty
  | one (p : Char → Bool)
  | seq (a b : Pattern)
  | alt (a b : Pattern)
  | star (a : Pattern)
  deriving Inhabited

namespace Pattern

/-- Does the pattern match the empty text? -/
def nullable : Pattern → Bool
  | never => false
  | empty => true
  | one _ => false
  | seq a b => a.nullable && b.nullable
  | alt a b => a.nullable || b.nullable
  | star _ => true

/-- `seq`, with the dead and the empty first part removed. -/
def andThen : Pattern → Pattern → Pattern
  | never, _ => never
  | empty, b => b
  | a, b => seq a b

/-- `alt`, with a dead side removed. -/
def orElse : Pattern → Pattern → Pattern
  | never, b => b
  | a, never => a
  | a, b => alt a b

/-- What is left to match after the character `c`. -/
def step (c : Char) : Pattern → Pattern
  | never => never
  | empty => never
  | one p => if p c then empty else never
  | seq a b =>
    if a.nullable then ((a.step c).andThen b).orElse (b.step c) else (a.step c).andThen b
  | alt a b => (a.step c).orElse (b.step c)
  | star a => (a.step c).andThen (star a)

def isNever : Pattern → Bool
  | never => true
  | _ => false

/-- `longest` with `taken` characters matched so far and the best length among them. -/
def longestFrom (r : Pattern) (taken : Nat) (best : Option Nat) (cs : List Char) : Option Nat :=
  let best := if r.nullable then some taken else best
  match cs with
  | [] => best
  | c :: cs =>
    let next := r.step c
    if next.isNever then best else longestFrom next (taken + 1) best cs

/-- Length of the longest beginning of `cs` that the pattern matches. -/
def longest (r : Pattern) (cs : List Char) : Option Nat := longestFrom r 0 none cs

/-- Does the pattern match the whole text? -/
def accepts (r : Pattern) (cs : List Char) : Bool := (cs.foldl (fun r c => r.step c) r).nullable

/-- The characters of `s`, one after the other. -/
def exactly (s : String) : Pattern := s.toList.foldr (fun c r => seq (one (· == c)) r) empty

/-- One of the characters of `s`. -/
def oneOf (s : String) : Pattern := one (s.toList.contains ·)

def opt (a : Pattern) : Pattern := alt empty a

/-- The patterns one after the other. -/
def chain (rs : List Pattern) : Pattern := rs.foldr seq empty

/-- Any of the patterns. -/
def anyOf (rs : List Pattern) : Pattern := rs.foldr alt never

/-- Exactly `n` times. -/
def times (n : Nat) (a : Pattern) : Pattern := chain (List.replicate n a)

end Pattern

end SwitchLint.Text
