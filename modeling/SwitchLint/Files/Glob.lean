/-!
Patterns of whole paths. A `?` stands for one character and a `*` for any number of them, slashes
included; `**` fills whole components; brackets list the characters that may stand in their place.
-/

namespace SwitchLint

namespace Glob

inductive Token where
  | char (c : Char)
  /-- `?` -/
  | anyChar
  /-- `[…]`: a character of one of the ranges. -/
  | within (ranges : List (Char × Char))
  /-- `[!…]`: a character of none of them. -/
  | outside (ranges : List (Char × Char))
  /-- `*` -/
  | sequence
  /-- `**` with the slash after it. -/
  | directories
  deriving DecidableEq, Repr

/-- What is wrong with a pattern. -/
inductive Cause where
  /-- More than two stars. -/
  | stars
  /-- A `**` that is no component of its own. -/
  | partOfComponent
  /-- Brackets that are not closed or that list nothing. -/
  | brackets
  deriving DecidableEq, Repr

def Cause.message : Cause → String
  | stars => "wildcards are either regular \x60*\x60 or recursive \x60**\x60"
  | partOfComponent => "recursive wildcards must form a single path component"
  | brackets => "invalid range pattern"

/-- What is wrong, and at which character. -/
structure Fault where
  position : Nat
  cause : Cause
  deriving DecidableEq, Repr

def Fault.message (f : Fault) : String :=
  s!"Pattern syntax error near position {f.position}: {f.cause.message}"

end Glob

/-- A pattern of paths. -/
structure Glob where
  tokens : List Glob.Token
  deriving DecidableEq, Repr

namespace Glob

/-! ### Reading -/

/-- The ranges between brackets; a single character is a range of its own. -/
def ranges : List Char → List (Char × Char)
  | a :: '-' :: b :: cs => (a, b) :: ranges cs
  | a :: cs => (a, a) :: ranges cs
  | [] => []

/-- What stands before the first closing bracket. The first character is never taken for it. -/
def bracketed? : List Char → Option (List Char)
  | [] => none
  | first :: rest =>
    if rest.contains ']' then some (first :: rest.takeWhile (· ≠ ']')) else none

/-- The token that begins with `c`, and how many of the characters `cs` after it belong to it. -/
def tokenAt (position : Nat) (before : Option Char) (c : Char) (cs : List Char) :
    Except Fault (Token × Nat) :=
  match c, cs with
  | '?', _ => .ok (.anyChar, 0)
  | '*', '*' :: '*' :: _ => .error ⟨position + 2, .stars⟩
  | '*', '*' :: rest =>
    if before = none ∨ before = some '/' then
      match rest with
      | [] => .ok (.directories, 1)
      | '/' :: _ => .ok (.directories, 2)
      | _ => .error ⟨position + 2, .partOfComponent⟩
    else .error ⟨position - 1, .partOfComponent⟩
  | '*', _ => .ok (.sequence, 0)
  | '[', '!' :: body =>
    match bracketed? body with
    | some inner => .ok (.outside (ranges inner), inner.length + 2)
    | none => .error ⟨position, .brackets⟩
  | '[', body =>
    match bracketed? body with
    | some inner => .ok (.within (ranges inner), inner.length + 1)
    | none => .error ⟨position, .brackets⟩
  | c, _ => .ok (.char c, 0)

/-- Adds a token to those read so far, last first. Two `**` side by side are one, except at the very
beginning. -/
def push : Token → List Token → List Token
  | .directories, .directories :: t :: ts => .directories :: t :: ts
  | t, ts => t :: ts

/-- The tokens of the pattern from `position` on. The next `skip` characters belong to the last token;
`tokens` are those read so far, last first. -/
def parseFrom (position : Nat) (before : Option Char) (skip : Nat) (tokens : List Token) :
    List Char → Except Fault (List Token)
  | [] => .ok tokens.reverse
  | c :: cs =>
    match skip with
    | skip + 1 => parseFrom (position + 1) (some c) skip tokens cs
    | 0 =>
      match tokenAt position before c cs with
      | .error f => .error f
      | .ok (t, skip) => parseFrom (position + 1) (some c) skip (push t tokens) cs

/-- Reads a pattern. -/
def parse (pattern : String) : Except Fault Glob :=
  (parseFrom 0 none 0 [] pattern.toList).map Glob.mk

/-! ### Matching -/

/-- Does a character of one of the ranges stand here? -/
def inRanges (rs : List (Char × Char)) (c : Char) : Bool := rs.any fun (a, b) => a ≤ c && c ≤ b

/-- Does the token accept this one character? -/
def Token.admits : Token → Char → Bool
  | char c, d => c == d
  | anyChar, _ => true
  | within rs, c => inRanges rs c
  | outside rs, c => !inRanges rs c
  | sequence, _ => false
  | directories, _ => false

/-- What is left of a text after any number of characters. -/
def endings : List Char → List (List Char)
  | [] => [[]]
  | c :: cs => (c :: cs) :: endings cs

/-- What is left of a text after each slash, and nothing. -/
def afterSlashes : List Char → List (List Char)
  | [] => [[]]
  | c :: cs => if c = '/' then cs :: afterSlashes cs else afterSlashes cs

/-- Do the tokens match the whole text? -/
def accepts : List Token → List Char → Bool
  | [], text => text.isEmpty
  | .sequence :: ts, text => (endings text).any (accepts ts)
  | .directories :: ts, text => (text :: afterSlashes text).any (accepts ts)
  | _ :: _, [] => false
  | t :: ts, c :: text => t.admits c && accepts ts text

/-- Does the pattern match the path? -/
def covers (g : Glob) (path : String) : Bool := accepts g.tokens path.toList

end Glob

end SwitchLint
