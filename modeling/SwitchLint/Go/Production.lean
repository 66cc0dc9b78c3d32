import SwitchLint.Go.Tree

/-!
Productions: what a node can consist of, as far as the nesting of statements goes. A list of statements
stands in a block or a clause, clauses stand in their switch or `select`, and a block or another
statement that owns statements stands in a list, behind a label, as a branch, or as a body. A leaf is a
lexeme that looks like it.
-/

namespace SwitchLint.Go

/-- Can a lexeme that looks like this be the leaf? A line break stands before a lexeme of any look. -/
def Leaf.fits : Leaf → Lexeme.Shape → Bool
  | mark, shape => shape == .mark || shape == .word || shape == .nul
  | lineBreak, _ => true
  | intLiteral, shape => shape == .int
  | floatLiteral, shape => shape == .float
  | imaginaryLiteral, shape => shape == .imaginary
  | runeLiteral, shape => shape == .rune
  | interpretedStringLiteral, shape => shape == .interpreted
  | rawStringLiteral, shape => shape == .raw
  | _, shape => shape == .word

namespace Kind

/-- Is the kind a statement that owns statements? -/
def isStatement : Kind → Bool
  | .block => true
  | .ifStatement => true
  | .forStatement => true
  | .expressionSwitchStatement => true
  | .typeSwitchStatement => true
  | .selectStatement => true
  | .labeledStatement => true
  | _ => false

/-- Is the kind a clause of a switch or a `select`? -/
def isClause : Kind → Bool
  | .expressionCase => true
  | .defaultCase => true
  | .typeCase => true
  | .communicationCase => true
  | _ => false

/-- Does the kind lie between statements and the statements inside them? -/
def nests (k : Kind) : Bool := k.isStatement || k.isClause || k == .statementList

/-- Can a node of a kind that nests stand there? -/
def takes (parent : Kind) (field : Option Field) (child : Kind) : Bool :=
  match parent, field with
  | .sourceFile, none => child.isStatement
  | .statementList, none => child.isStatement
  | .labeledStatement, none => child.isStatement
  | .block, none => child == .statementList
  | .expressionCase, none => child == .statementList
  | .defaultCase, none => child == .statementList
  | .typeCase, none => child == .statementList
  | .communicationCase, none => child == .statementList
  | .expressionSwitchStatement, none => child == .expressionCase || child == .defaultCase
  | .typeSwitchStatement, none => child == .typeCase || child == .defaultCase
  | .selectStatement, none => child == .communicationCase || child == .defaultCase
  | .ifStatement, some .consequence => child == .block
  | .ifStatement, some .alternative => child == .block || child == .ifStatement
  | .forStatement, some .body => child == .block
  | .functionDeclaration, some .body => child == .block
  | .methodDeclaration, some .body => child == .block
  | .funcLiteral, some .body => child == .block
  | _, _ => false

/-- The word or bracket that a node begins with. -/
def opening? : Kind → Option String
  | .block => some "\x7b"
  | .ifStatement => some "if"
  | .forStatement => some "for"
  | .expressionSwitchStatement => some "switch"
  | .typeSwitchStatement => some "switch"
  | .selectStatement => some "select"
  | .expressionCase => some "case"
  | .defaultCase => some "default"
  | .typeCase => some "case"
  | .communicationCase => some "case"
  | _ => none

/-- The kind that alone fills a field. -/
def filler? : Kind → Field → Option Kind
  | .expressionCase, .value => some .expressionList
  | .ifStatement, .consequence => some .block
  | .forStatement, .body => some .block
  | .functionDeclaration, .body => some .block
  | .methodDeclaration, .body => some .block
  | .funcLiteral, .body => some .block
  | _, _ => none

/-- Does a node of the kind begin as it has to? Only a file can be empty, none begins with a line break,
and in the case clause of a switch the values follow the keyword. -/
def opensWith (parent : Kind) (children : List (Option Field × Tree)) : Bool :=
  match parent.opening?, children with
  | none, [] => parent == .sourceFile
  | none, (_, .leaf .lineBreak _) :: _ => false
  | none, _ => true
  | some text, (none, .leaf .mark l) :: rest =>
    l.text == text && (parent != .expressionCase || rest.head?.any (·.1 == some .value))
  | some _, _ => false

/-- Can the child stand in a node of the kind? Between expressions there are commas, and a file stands
in nothing. -/
def admitsChild (parent : Kind) : Option Field × Tree → Bool
  | (field, .leaf as l) =>
    as.fits l.shape && (field.bind parent.filler?).isNone &&
      (parent != .expressionList || as.isNamed || (as == .mark && l.text == ","))
  | (field, .node kind _) =>
    kind != .sourceFile && (field.bind parent.filler?).all (kind == ·) &&
      (!kind.nests || parent.takes field kind)

/-- Can a node of the kind have the children? The case clause of a switch has one list of values. -/
def admits (parent : Kind) (children : List (Option Field × Tree)) : Bool :=
  parent.opensWith children && children.all parent.admitsChild &&
    (parent != .expressionCase || children.countP (·.1 == some .value) == 1)

end Kind

end SwitchLint.Go
