import SwitchLint.Go.Tree
import SwitchLint.Syntax.Basic

/-!
From concrete Go syntax to the syntax that rules look at. Switches over expressions keep their
clauses, statements that own blocks keep the blocks, and every other statement becomes a range.
Expressions keep all their parts. Function literals are expressions: the statements inside them are
no statements of the function around them.
-/

namespace SwitchLint.Go

namespace Tree

mutual

/-- An expression with all its parts. -/
def toExpr : Tree → Expr
  | leaf as l =>
    let span := leafSpan as l
    match as with
    | .identifier => .ident l.text span
    | .fieldIdentifier => .ident l.text span
    | .packageIdentifier => .ident l.text span
    | .typeIdentifier => .ident l.text span
    | as => .token (as.name l.text) l.text span
  | node kind children =>
    let parts := partsOf children
    let span := (node kind children).span
    match kind, parts with
    | .selectorExpression, [base, _, field] => .selector base field span
    | kind, parts => .node kind.name parts span

/-- The parts of a composite expression; a line break that ends a statement is none. -/
def partsOf : List (Option Field × Tree) → List Expr
  | [] => []
  | (_, leaf .lineBreak _) :: cs => partsOf cs
  | (_, t) :: cs => toExpr t :: partsOf cs

end

/-- The expressions of a case, between its commas. -/
def caseValues (t : Tree) : List Expr := t.namedChildren.map fun c => c.2.toExpr

mutual

/-- A statement. -/
def toStmt : Tree → Stmt
  | leaf as l => .simple (leafSpan as l)
  | node kind children =>
    let span := (node kind children).span
    match kind with
    | .expressionSwitchStatement => .switch (clausesOf children) span
    | .block => .compound .block [.mk (stmtsOf children) span] span
    | .ifStatement => .compound .conditional (branchesOf children) span
    | .forStatement => .compound .loop (bodiesOf children) span
    | .typeSwitchStatement => .compound .typeSwitch (clauseBlocksOf children) span
    | .selectStatement => .compound .select (clauseBlocksOf children) span
    | .labeledStatement => .compound .labeled [.mk (labeledOf children) span] span
    | _ => .simple span

/-- The statements among children: the named ones that fill no field. -/
def stmtsOf : List (Option Field × Tree) → List Stmt
  | [] => []
  | (none, node .statementList inner) :: cs => stmtsOf inner ++ stmtsOf cs
  | (none, node kind inner) :: cs => toStmt (node kind inner) :: stmtsOf cs
  | (_, _) :: cs => stmtsOf cs

/-- The clauses of a switch over expressions. -/
def clausesOf : List (Option Field × Tree) → List Clause
  | [] => []
  | (_, node .expressionCase inner) :: cs =>
    .mk (some (valuesOf inner)) (stmtsOf inner) (node .expressionCase inner).span :: clausesOf cs
  | (_, node .defaultCase inner) :: cs =>
    .mk none (stmtsOf inner) (node .defaultCase inner).span :: clausesOf cs
  | (_, _) :: cs => clausesOf cs

/-- The expressions of the first child that is the value of its clause. -/
def valuesOf : List (Option Field × Tree) → List Expr
  | [] => []
  | (some .value, t) :: _ => t.caseValues
  | (_, _) :: cs => valuesOf cs

/-- The branches of a conditional; one that is no block becomes a block of its own. -/
def branchesOf : List (Option Field × Tree) → List Block
  | [] => []
  | (some .consequence, node .block inner) :: cs =>
    .mk (stmtsOf inner) (node .block inner).span :: branchesOf cs
  | (some .alternative, node .block inner) :: cs =>
    .mk (stmtsOf inner) (node .block inner).span :: branchesOf cs
  | (some .alternative, t) :: cs => .mk [toStmt t] t.span :: branchesOf cs
  | (_, _) :: cs => branchesOf cs

/-- The body of a loop. -/
def bodiesOf : List (Option Field × Tree) → List Block
  | [] => []
  | (some .body, node kind inner) :: cs =>
    .mk (stmtsOf inner) (node kind inner).span :: bodiesOf cs
  | (_, _) :: cs => bodiesOf cs

/-- The bodies of the clauses of a type switch or a `select`. -/
def clauseBlocksOf : List (Option Field × Tree) → List Block
  | [] => []
  | (_, node .typeCase inner) :: cs =>
    .mk (stmtsOf inner) (node .typeCase inner).span :: clauseBlocksOf cs
  | (_, node .communicationCase inner) :: cs =>
    .mk (stmtsOf inner) (node .communicationCase inner).span :: clauseBlocksOf cs
  | (_, node .defaultCase inner) :: cs =>
    .mk (stmtsOf inner) (node .defaultCase inner).span :: clauseBlocksOf cs
  | (_, _) :: cs => clauseBlocksOf cs

/-- The statement behind a label, if there is one. -/
def labeledOf : List (Option Field × Tree) → List Stmt
  | [] => []
  | (_, node kind inner) :: cs => toStmt (node kind inner) :: labeledOf cs
  | (_, leaf _ _) :: cs => labeledOf cs

end

/-- The block that a tree of that kind stands for. -/
def toBlock (t : Tree) : Block := .mk (stmtsOf t.children) t.span

/-- A declaration at the top of a file. -/
def toDecl (t : Tree) : Decl :=
  if t.isKind .functionDeclaration || t.isKind .methodDeclaration then
    .function
      { name := ((t.child? .name).map text).getD ""
        body := (t.child? .body).map toBlock
        span := t.span }
  else .other t.span

/-- A file. -/
def toSourceFile (t : Tree) : SourceFile := ⟨t.namedChildren.map fun c => toDecl c.2⟩

end Tree

end SwitchLint.Go
