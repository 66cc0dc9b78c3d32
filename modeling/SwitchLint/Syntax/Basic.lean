import SwitchLint.Source.Position

/-!
The syntax that rules look at, whatever language it was read from: declarations, the nesting of
statements, and full expression trees. What no rule inspects is kept as a range only.
-/

namespace SwitchLint

/-- An expression. `kind` is the reader's name for what a token or a node is. -/
inductive Expr where
  | ident (name : String) (span : Span)
  /-- `base.field` -/
  | selector (base field : Expr) (span : Span)
  /-- A literal, an operator, a keyword or punctuation. -/
  | token (kind text : String) (span : Span)
  /-- Any other composite expression, with all its parts in order. -/
  | node (kind : String) (children : List Expr) (span : Span)
  deriving Inhabited

/-- What a statement with nested blocks is. -/
inductive CompoundKind where
  | block
  | conditional
  | loop
  | select
  | typeSwitch
  | labeled
  deriving DecidableEq, Repr, Inhabited

mutual

/-- A statement. -/
inductive Stmt where
  /-- A switch over expressions, with its clauses in order. -/
  | switch (clauses : List Clause) (span : Span)
  /-- A statement that owns blocks. -/
  | compound (kind : CompoundKind) (blocks : List Block) (span : Span)
  /-- A statement without nested statements. -/
  | simple (span : Span)

/-- A clause of a switch; the default clause has no expressions. -/
inductive Clause where
  | mk (exprs : Option (List Expr)) (body : List Stmt) (span : Span)

/-- A list of statements in braces. -/
inductive Block where
  | mk (stmts : List Stmt) (span : Span)

end

instance : Inhabited Stmt := ⟨.simple Span.zero⟩
instance : Inhabited Clause := ⟨.mk none [] Span.zero⟩
instance : Inhabited Block := ⟨.mk [] Span.zero⟩

/-- A declaration of a function or a method; one without a body is external. -/
structure Function where
  name : String
  body : Option Block
  span : Span
  deriving Inhabited

/-- A declaration at the top of a file. -/
inductive Decl where
  | function (f : Function)
  | other (span : Span)
  deriving Inhabited

/-- A file: its declarations in order. -/
structure SourceFile where
  decls : List Decl
  deriving Inhabited

namespace Expr

def span : Expr → Span
  | ident _ s => s
  | selector _ _ s => s
  | token _ _ s => s
  | node _ _ s => s

/-- `base.field`, from the start of the base to the end of the field. -/
def select (base field : Expr) : Expr :=
  selector base field { base.span with stop := field.span.stop }

def isSelector : Expr → Bool
  | selector _ _ _ => true
  | _ => false

end Expr

namespace Clause

def exprs : Clause → Option (List Expr)
  | mk es _ _ => es

def body : Clause → List Stmt
  | mk _ b _ => b

def span : Clause → Span
  | mk _ _ s => s

def isDefault (c : Clause) : Bool := c.exprs.isNone

end Clause

namespace Block

def stmts : Block → List Stmt
  | mk ss _ => ss

def span : Block → Span
  | mk _ s => s

end Block

namespace Stmt

def span : Stmt → Span
  | switch _ s => s
  | compound _ _ s => s
  | simple s => s

/-- The statements one level further in: of all clauses of a switch, or of all blocks. -/
def nested : Stmt → List Stmt
  | switch clauses _ => clauses.flatMap Clause.body
  | compound _ blocks _ => blocks.flatMap Block.stmts
  | simple _ => []

/-- A statement inside another is smaller. -/
theorem sizeOf_nested {s t : Stmt} (inside : t ∈ s.nested) : sizeOf t < sizeOf s := by
  cases s with
  | switch clauses span =>
    obtain ⟨c, hc, ht⟩ := List.mem_flatMap.mp inside
    have clause := List.sizeOf_lt_of_mem hc
    cases c with | mk exprs body _ =>
    have stmt := List.sizeOf_lt_of_mem ht
    simp only [Clause.body, Clause.mk.sizeOf_spec, switch.sizeOf_spec] at *
    omega
  | compound kind blocks span =>
    obtain ⟨b, hb, ht⟩ := List.mem_flatMap.mp inside
    have block := List.sizeOf_lt_of_mem hb
    cases b with | mk stmts _ =>
    have stmt := List.sizeOf_lt_of_mem ht
    simp only [Block.stmts, Block.mk.sizeOf_spec, compound.sizeOf_spec] at *
    omega
  | simple _ => cases inside

mutual

/-- The statement and all statements inside it, each before those inside it. -/
def preorder : Stmt → List Stmt
  | switch clauses span => switch clauses span :: preorderClauses clauses
  | compound kind blocks span => compound kind blocks span :: preorderBlocks blocks
  | simple span => [simple span]

/-- `preorder` of all statements of the list. -/
def preorderList : List Stmt → List Stmt
  | [] => []
  | s :: ss => preorder s ++ preorderList ss

/-- `preorder` of all statements of the clauses. -/
def preorderClauses : List Clause → List Stmt
  | [] => []
  | .mk _ body _ :: cs => preorderList body ++ preorderClauses cs

/-- `preorder` of all statements of the blocks. -/
def preorderBlocks : List Block → List Stmt
  | [] => []
  | .mk stmts _ :: bs => preorderList stmts ++ preorderBlocks bs

end

end Stmt

/-- The expressions of all clauses but the default, in clause order. -/
def caseExprs (clauses : List Clause) : List Expr := (clauses.filterMap Clause.exprs).flatten

/-- The functions and methods of a file, in order. -/
def SourceFile.functions (file : SourceFile) : List Function :=
  file.decls.filterMap fun
    | .function f => some f
    | .other _ => none

end SwitchLint
