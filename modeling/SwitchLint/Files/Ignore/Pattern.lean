import SwitchLint.Text.Pattern

/-!
The patterns of ignore files. A `?` stands for one byte and a `*` for any number of them, but not for a
slash; `**` stands for directories; brackets list characters; braces hold alternatives between commas.
A backslash takes the character after it literally. A pattern is compiled to a regular expression over
the bytes of a path.
-/

namespace SwitchLint.Ignore

open Text (Pattern)

inductive Token where
  | char (c : Char)
  /-- `?` -/
  | anyByte
  /-- `*` -/
  | sequence
  /-- `**` at the beginning, with the slash after it. -/
  | leading
  /-- `**` at the end, with the slash before it. -/
  | trailing
  /-- `**` in between, with the slashes around it. -/
  | between
  | brackets (negated : Bool) (ranges : List (Char × Char))
  | braces (branches : List (List Token))
  deriving Repr, Inhabited

/-- What is wrong with a pattern. -/
inductive Fault where
  | backwardRange (first last : Char)
  | unopenedBraces
  | unclosedBraces
  | nothingEscaped
  deriving DecidableEq, Repr

def Fault.message : Fault → String
  | backwardRange a b => s!"invalid range; \x27{a}\x27 > \x27{b}\x27"
  | unopenedBraces =>
    "unopened alternate group; missing \x27\x7b\x27 (maybe escape \x27\x7d\x27 with \x27[\x7d]\x27?)"
  | unclosedBraces =>
    "unclosed alternate group; missing \x27\x7d\x27 (maybe escape \x27\x7b\x27 with \x27[\x7b]\x27?)"
  | nothingEscaped => "dangling \x27\\\x27"

/-! ### Reading -/

/-- The ranges between brackets and the number of characters up to the end of the closing bracket, if
there is one. `ranges` are those read so far, last first; after a dash (`inRange`) the last one is
extended. The first character never closes the brackets. -/
def readBrackets (first inRange : Bool) (count : Nat) (ranges : List (Char × Char)) :
    List Char → Except Fault (Option (List (Char × Char) × Nat))
  | [] => .ok none
  | c :: cs =>
    let go := fun inRange ranges => readBrackets false inRange (count + 1) ranges cs
    if c = ']' ∧ !first then
      .ok (some ((if inRange then ('-', '-') :: ranges else ranges).reverse, count + 1))
    else
      match inRange, ranges with
      | true, (a, _) :: others => if c < a then .error (.backwardRange a c) else go false ((a, c) :: others)
      | _, _ => if c = '-' ∧ !first then go true ranges else go false ((c, c) :: ranges)

/-- What has been read of a pattern. -/
structure Reader where
  /-- The tokens of the current branch, last first. -/
  tokens : List Token := []
  /-- The open braces, innermost first: the tokens before them and the branches that are complete, both
  last first. -/
  groups : List (List Token × List (List Token)) := []
  /-- Once brackets are not closed, no others can be. -/
  unclosed : Bool := false

namespace Reader

def push (r : Reader) (t : Token) : Reader := { r with tokens := t :: r.tokens }

/-- Reads `**`, with `rest` after it, and counts the characters taken besides the first star. Stars
that fill no component of the path are two single ones. -/
def stars (r : Reader) (before : Option Char) (rest : List Char) : Reader × Nat :=
  let single := (((r.push .sequence).push .sequence), 1)
  let replace (last : Token) (others : List Token) (new : Token) : Reader :=
    match last with
    | .leading | .trailing => r
    | _ => { r with tokens := new :: others }
  match r.tokens with
  | [] =>
    match rest with
    | [] => (r.push .leading, 1)
    | '/' :: _ => (r.push .leading, 2)
    | _ => single
  | last :: others =>
    let inGroup := !r.groups.isEmpty
    if before = some '/' ∨ inGroup ∧ (before = some ',' ∨ before = some '\x7b') then
      match rest with
      | [] => (replace last others .trailing, 1)
      | '/' :: _ => (replace last others .between, 2)
      | c :: _ => if inGroup ∧ (c = ',' ∨ c = '\x7d') then (replace last others .trailing, 1) else single
    else single

/-- Reads brackets, with `cs` after the opening one. Where they are not closed, the bracket stands for
itself. -/
def brackets (r : Reader) (cs : List Char) : Except Fault (Reader × Nat) := do
  let negated := cs.head? = some '!' ∨ cs.head? = some '^'
  let skipped := if negated then 1 else 0
  match ← readBrackets true false skipped [] (cs.drop skipped) with
  | some (ranges, count) => pure (r.push (.brackets negated ranges), count)
  | none => pure ({ r.push (.char '[') with unclosed := true }, 0)

/-- Reads what begins with `c`, with `cs` after it, and counts the characters taken from `cs`. -/
def step (r : Reader) (before : Option Char) (c : Char) (cs : List Char) :
    Except Fault (Reader × Nat) :=
  match c with
  | '?' => .ok (r.push .anyByte, 0)
  | '*' =>
    match cs with
    | '*' :: rest => .ok (r.stars before rest)
    | _ => .ok (r.push .sequence, 0)
  | '[' => if r.unclosed then .ok (r.push (.char '['), 0) else r.brackets cs
  | '\x7b' => .ok ({ r with tokens := [], groups := (r.tokens, []) :: r.groups }, 0)
  | '\x7d' =>
    match r.groups with
    | [] => .error .unopenedBraces
    | (outer, branches) :: groups =>
      let group := .braces (r.tokens.reverse :: branches).reverse
      .ok ({ r with tokens := group :: outer, groups }, 0)
  | ',' =>
    match r.groups with
    | [] => .ok (r.push (.char ','), 0)
    | (outer, branches) :: groups =>
      .ok ({ r with tokens := [], groups := (outer, r.tokens.reverse :: branches) :: groups }, 0)
  | '\\' =>
    match cs with
    | [] => .error .nothingEscaped
    | d :: _ => .ok (r.push (.char d), 1)
  | c => .ok (r.push (.char c), 0)

/-- Reads a text. The next `skip` characters are taken already. -/
def run (r : Reader) (before : Option Char) (skip : Nat) : List Char → Except Fault Reader
  | [] => .ok r
  | c :: cs =>
    match skip with
    | skip + 1 => run r (some c) skip cs
    | 0 =>
      match r.step before c cs with
      | .error f => .error f
      | .ok (r, skip) => run r (some c) skip cs

end Reader

/-- The tokens of a pattern. -/
def readTokens (cs : List Char) : Except Fault (List Token) := do
  let r ← Reader.run {} none 0 cs
  if r.groups.isEmpty then pure r.tokens.reverse else .error .unclosedBraces

/-! ### Meaning -/

/-- The bytes of a character, each as the character of that number. -/
def bytesOf (c : Char) : List Char := (String.utf8EncodeChar c).map fun b => Char.ofNat b.toNat

/-- The bytes of a text. -/
def bytes (cs : List Char) : List Char := cs.flatMap bytesOf

def slash : Pattern := .one (· == '/')

def anyBytes : Pattern := .star (.one fun _ => true)

def noSlash : Pattern := .one (· != '/')

/-- The ranges of bytes that a range of characters is taken for: it runs from the last byte of the one to
the first byte of the other, and the remaining bytes count by themselves. -/
def byteRanges (a b : Char) : List (Char × Char) :=
  let single (c : Char) : Char × Char := (c, c)
  if a = b then (bytesOf a).map single
  else
    match (bytesOf a).getLast?, bytesOf b with
    | some last, first :: rest => (bytesOf a).dropLast.map single ++ (last, first) :: rest.map single
    | _, _ => []

/-- A byte of one of the ranges, or of none of them. -/
def bracketPattern (negated : Bool) (ranges : List (Char × Char)) : Pattern :=
  let inner := ranges.flatMap fun (a, b) => byteRanges a b
  .one fun c => (inner.any fun (a, b) => a ≤ c && c ≤ b) != negated

mutual

/-- The pattern that a token stands for. Braces around nothing stand for nothing. -/
def Token.pattern? : Token → Option Pattern
  | .char c => some (.chain ((bytesOf c).map fun b => .one (· == b)))
  | .anyByte => some noSlash
  | .sequence => some (.star noSlash)
  | .leading => some (.alt (.opt slash) (.seq anyBytes slash))
  | .trailing => some (.seq slash anyBytes)
  | .between => some (.alt slash (.seq slash (.seq anyBytes slash)))
  | .brackets negated ranges => some (bracketPattern negated ranges)
  | .braces branches =>
    match branchPatterns branches with
    | [] => none
    | ps => some (.anyOf ps)

/-- The pattern that tokens stand for, one after the other. -/
def sequencePattern? : List Token → Option Pattern
  | [] => none
  | t :: ts =>
    match t.pattern?, sequencePattern? ts with
    | none, rest => rest
    | some p, none => some p
    | some p, some q => some (.seq p q)

/-- The patterns of the branches. Branches that hold nothing are left out. -/
def branchPatterns : List (List Token) → List Pattern
  | [] => []
  | b :: bs => (sequencePattern? b).toList ++ branchPatterns bs

end

/-- The pattern that a whole list of tokens stands for. A `**` alone matches everything. -/
def patternOf : List Token → Pattern
  | [.leading] => anyBytes
  | ts => (sequencePattern? ts).getD .empty

/-- Reads a pattern. -/
def parsePattern (cs : List Char) : Except Fault Pattern := (readTokens cs).map patternOf

end SwitchLint.Ignore
