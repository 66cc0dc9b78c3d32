import SwitchLint.Go.Derivation

/-!
The tools of the grammar: pieces of derivations, readings of a phrase that may be an expression or a
type, and parsers that walk over lexemes. Where a phrase has several derivations the heavier one is
taken; the weights are those of the kinds below.
-/

namespace SwitchLint.Go.Grammar

/-! ### Pieces -/

/-- A piece of a derivation: its steps (the latest first), the fields of the trees that it leaves
(the latest first), and its weight. -/
structure Piece where
  steps : List Step
  fields : List (Option Field)
  weight : Int
  deriving Inhabited

namespace Piece

def nil : Piece := ⟨[], [], 0⟩

/-- One piece after another. -/
def append (a b : Piece) : Piece :=
  ⟨b.steps ++ a.steps, b.fields ++ a.fields, a.weight + b.weight⟩

instance : Append Piece := ⟨append⟩

/-- The next lexeme as a leaf. -/
def leaf (as : Leaf) : Piece := ⟨[.shift as], [none], 0⟩

/-- The next lexeme as a fixed spelling. -/
def mark : Piece := leaf .mark

/-- Cuts the next lexeme. -/
def cut (n : Nat) : Piece := ⟨[.cut n], [], 0⟩

/-- The line break before the next lexeme as a leaf. -/
def lineBreak : Piece := ⟨[.lineBreak], [none], 0⟩

/-- The same piece with more weight. -/
def weigh (w : Int) (p : Piece) : Piece := { p with weight := p.weight + w }

/-- Weight of a kind among the derivations of one phrase. -/
def kindWeight : Kind → Int
  | .indexExpression => 1
  | .genericType => 1
  | .typeArguments => 2
  | .typeConversionExpression => -1
  | .typeInstantiationExpression => -1
  | _ => 0

/-- All the pieces in order. -/
def concat (ps : List Piece) : Piece := ps.foldl append nil

/-- A node over all the trees that the piece leaves. -/
def wrap (kind : Kind) (p : Piece) : Piece :=
  ⟨.reduce kind p.fields.reverse :: p.steps, [none], p.weight + kindWeight kind⟩

/-- A node over the trees of the pieces in order. -/
def node (kind : Kind) (ps : List Piece) : Piece := wrap kind (concat ps)

/-- The piece whose trees all fill the field `f`. -/
def as (f : Field) (p : Piece) : Piece := { p with fields := p.fields.map fun _ => some f }

/-- The pieces with a fixed spelling between each two. -/
def separated : List Piece → List Piece
  | [] => []
  | [p] => [p]
  | p :: ps => p :: mark :: separated ps

/-- The heaviest of the pieces, the first among equals. -/
def heaviest : List Piece → Option Piece
  | [] => none
  | p :: ps =>
    match heaviest ps with
    | some q => if q.weight ≤ p.weight then some p else some q
    | none => some p

end Piece

/-! ### Readings -/

/-- What a phrase can stand for. A phrase such as `a`, `*a` or `a[b]` is an expression and a type at
once until its surroundings decide. -/
structure Reading where
  /-- As an expression. -/
  expr : Option Piece := none
  /-- As a type. -/
  type : Option Piece := none
  /-- As the name of a type that may take type arguments. -/
  name : Option Piece := none
  /-- As the type of a composite literal. -/
  literal : Option Piece := none
  /-- As a union of types. -/
  element : Option Piece := none
  /-- As an operand and its type arguments, waiting for the arguments of a call. -/
  applied : Option Piece := none
  /-- Is it a lone identifier? -/
  lone : Bool := false
  /-- Does it already contain the stars that stand before it? -/
  absorbed : Bool := false
  deriving Inhabited

/-! ### Parsers -/

/-- What the parser has proposed so far and the lexemes in front of it. -/
structure Cursor where
  rest : List Lexeme
  piece : Piece
  /-- Was a brace after a type name taken for a composite literal where a block was possible? -/
  guessed : Bool
  /-- Is this the first statement of its list? -/
  leading : Bool

/-- The lexeme at which no rule of the grammar goes on, and whether a brace had been guessed. -/
structure Stuck where
  found : Lexeme
  guessed : Bool
  deriving Repr, Inhabited

/-- The stop that lies further in the source. -/
def Stuck.further (a b : Stuck) : Stuck :=
  if a.found.start.offset < b.found.start.offset then b else a

/-- The stop seen from outside, where `guessed` holds. -/
def Stuck.outside (s : Stuck) (guessed : Bool) : Stuck := { s with guessed := guessed }

abbrev Parser := StateT Cursor (Except Stuck)

namespace Parser

/-- The next lexeme. -/
def next : Parser Lexeme := fun c =>
  match c.rest with
  | l :: _ => .ok (l, c)
  | [] => .error ⟨default, c.guessed⟩

/-- The lexemes in front of the cursor. -/
def ahead : Parser (List Lexeme) := fun c => .ok (c.rest, c)

/-- Stops at the next lexeme. -/
def stuck {α : Type} : Parser α := fun c =>
  match c.rest with
  | l :: _ => .error ⟨l, c.guessed⟩
  | [] => .error ⟨default, c.guessed⟩

/-- Passes over the next lexeme, proposing nothing. -/
def skip : Parser Unit := fun c => .ok ((), { c with rest := c.rest.drop 1 })

/-- Cuts the next lexeme, proposing nothing. -/
def cutAhead (n : Nat) : Parser Unit := fun c =>
  match c.rest with
  | l :: ls => .ok ((), { c with rest := (l.cut n).1 :: (l.cut n).2 :: ls })
  | [] => .ok ((), c)

/-- Proposes a piece. -/
def propose (p : Piece) : Parser Unit := fun c => .ok ((), { c with piece := c.piece ++ p })

/-- Runs `p` and hands out the piece that it proposes. -/
def capture {α : Type} (p : Parser α) : Parser (α × Piece) := fun c =>
  match p { c with piece := Piece.nil } with
  | .ok (a, c') => .ok ((a, c'.piece), { c' with piece := c.piece })
  | .error e => .error e

/-- The piece that `p` proposes. -/
def pieceOf (p : Parser Unit) : Parser Piece := do
  let (_, piece) ← capture p
  return piece

/-- Makes a node of all that `p` proposes. -/
def node (kind : Kind) (p : Parser Unit) : Parser Unit := do
  propose (Piece.wrap kind (← pieceOf p))

/-- Everything that `p` proposes fills the field `f`. -/
def field (f : Field) (p : Parser Unit) : Parser Unit := do
  propose (Piece.as f (← pieceOf p))

/-- Runs `p`, or `q` from the same place if `p` gets stuck. -/
def orTry {α : Type} (p q : Parser α) : Parser α := fun c =>
  match p c with
  | .ok r => .ok r
  | .error e =>
    match q c with
    | .ok r => .ok r
    | .error e' => .error (e.further e')

/-- The outcome of `p`, or nothing, from the same place, if it gets stuck. -/
def attempt {α : Type} (p : Parser α) : Parser (Option α) := fun c =>
  match p c with
  | .ok (a, c') => .ok (some a, c')
  | .error _ => .ok (none, c)

/-- Does `p` get through? The cursor stays. -/
def succeeds {α : Type} (p : Parser α) : Parser Bool := fun c =>
  match p c with
  | .ok _ => .ok (true, c)
  | .error _ => .ok (false, c)

/-- The next lexeme as a leaf. -/
def take (as : Leaf) : Parser Unit := do
  skip
  propose (Piece.leaf as)

/-- Repeats `p` as long as it asks for more. -/
def loop : Nat → Parser Bool → Parser Unit
  | 0, _ => stuck
  | fuel + 1, p => do
    if ← p then loop fuel p else pure ()

/-- Repeats `p` as long as it gives something, and collects what it gives. -/
def gather {α : Type} : Nat → Parser (Option α) → Parser (List α)
  | 0, _ => stuck
  | fuel + 1, p => do
    match ← p with
    | some a => return a :: (← gather fuel p)
    | none => return []

end Parser

/-! ### Lexemes in the grammar -/

/-- The words that never name anything. -/
def reserved : List String :=
  ["break", "default", "func", "interface", "select", "case", "defer", "go", "map", "struct",
    "chan", "else", "goto", "package", "switch", "const", "fallthrough", "if", "range", "type",
    "continue", "for", "import", "return", "var"]

/-- The words that are values of their own where an expression may stand, and names elsewhere. -/
def valueLeaf : String → Option Leaf
  | "nil" => some .nilValue
  | "true" => some .trueValue
  | "false" => some .falseValue
  | "iota" => some .iotaValue
  | _ => none

/-- The functions whose first argument is a type. -/
def takesType (name : String) : Bool := name == "new" || name == "make"

end Grammar

namespace Lexeme

/-- Is the lexeme spelled `s`, as a mark or a word? -/
def is (l : Lexeme) (s : String) : Bool := (l.shape == .mark || l.shape == .word) && l.text == s

/-- May the lexeme be a name? -/
def isName (l : Lexeme) : Bool := l.shape == .word && !Grammar.reserved.contains l.text

/-- Is the lexeme a string literal? -/
def isString (l : Lexeme) : Bool := l.shape == .interpreted || l.shape == .raw

/-- Does a line break precede the lexeme? -/
def startsLine (l : Lexeme) : Bool := l.newline.isSome

/-- Can the lexeme begin a type? -/
def startsType (l : Lexeme) : Bool :=
  l.isName ||
    ["struct", "interface", "map", "chan", "func", "*", "[", "<-", "~", "("].any (l.is ·)

end Lexeme

namespace Grammar

namespace Parser

/-- Takes the mark or keyword `s`. -/
def mark (s : String) : Parser Unit := do
  if (← next).is s then take .mark else stuck

/-- Takes a name as the leaf `as`. -/
def name (as : Leaf) : Parser Unit := do
  if (← next).isName then take as else stuck

/-- Takes a string literal. -/
def string : Parser Unit := do
  match (← next).shape with
  | .interpreted => take .interpretedStringLiteral
  | .raw => take .rawStringLiteral
  | _ => stuck

/-- Is the next lexeme spelled `s`? -/
def sees (s : String) : Parser Bool := do
  return (← next).is s

/-- Does the phrase end here because of a line break? -/
def brokenHere (lineEnds : Bool) : Parser Bool := do
  return lineEnds && (← next).startsLine

/-- Takes the end of a statement or declaration, if it stands here: a line break, a semicolon or a
null character. -/
def terminator? : Parser Bool := fun c =>
  match c.rest with
  | l :: ls =>
    if l.startsLine then
      .ok (true, { c with rest := { l with newline := none } :: ls, piece := c.piece ++ Piece.lineBreak })
    else if l.is ";" || l.shape == .nul then
      .ok (true, { c with rest := ls, piece := c.piece ++ Piece.mark })
    else .ok (false, c)
  | [] => .ok (false, c)

end Parser

/-! ### Surroundings -/

/-- What an opening brace after the name of a type may begin. -/
inductive Braces where
  /-- Only a composite literal. -/
  | literal
  /-- Only a block. -/
  | block
  /-- A block, or after a qualified or generic name a composite literal. -/
  | either
  deriving DecidableEq

/-- What surrounds an expression. -/
structure Context where
  /-- Does a line break end the expression once it is complete? -/
  lineEnds : Bool
  braces : Braces
  /-- May `++` or `--` follow as the operator of a statement? -/
  mayStep : Bool
  /-- May `<-` follow as the operator of a statement? -/
  maySend : Bool
  /-- Are words such as `nil` names of types here? -/
  allNames : Bool

/-- Inside brackets of any kind. -/
def Context.inside : Context := ⟨false, .literal, false, false, false⟩

/-- In a statement of its own line. -/
def Context.onLine : Context := ⟨true, .literal, false, false, false⟩

/-- The parsers of a phrase one level further in, which the rules of this level call for phrases
within phrases. -/
structure Rules where
  fuel : Nat
  expr : Context → Parser Reading
  /-- A type; a line break may end it. -/
  type : Bool → Parser Unit
  literal : Parser Unit
  block : Parser Unit
  statement : Parser Unit

end Grammar

end SwitchLint.Go
