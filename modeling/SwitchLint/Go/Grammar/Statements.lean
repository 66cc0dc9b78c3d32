import SwitchLint.Go.Grammar.Expressions

/-!
The statements and declarations of Go, as they stand in blocks and, more liberally than a compiler
has it, at the top of a file. A line break, a semicolon or a null character ends a statement; no
semicolon is inserted anywhere.
-/

namespace SwitchLint.Go.Grammar

open SwitchLint.Go.Grammar.Parser

/-! ### Lists of statements -/

/-- The words and marks at which a list of statements ends. -/
def Ending (l : Lexeme) : Bool :=
  l.is "\x7d" || l.is "case" || l.is "default" || l.shape == .eof

/-- Does a list of statements end here? -/
def atEnding : Parser Bool := do
  return Ending (← next)

/-- Does a label stand here? -/
def atLabel : Parser Bool := do
  match ← ahead with
  | l :: colon :: _ =>
    return l.isName && (valueLeaf l.text).isNone && !takesType l.text && colon.is ":" &&
      !colon.startsLine
  | _ => return false

def label : Parser Unit := do
  field .label (name .labelName)
  mark ":"

/-- A statement of a list. The last one may be a label alone. -/
def listedStatement (r : Rules) : Parser Unit := do
  if (← atLabel) && (((← ahead).drop 2).head?.map Ending).getD false then
    node .labeledStatement label
  else r.statement

/-- Runs `p` where a list of statements begins. -/
def leadingWith (p : Parser Unit) : Parser Unit := fun c =>
  match p { c with leading := true } with
  | .ok (_, c') => .ok ((), { c' with leading := c.leading })
  | .error e => .error e

/-- From here on the statements are not the first of their list. -/
def led : Parser Unit := fun c => .ok ((), { c with leading := false })

def statementList (r : Rules) : Parser Unit :=
  leadingWith <| node .statementList do
    loop r.fuel do
      listedStatement r
      led
      if ← terminator? then return !(← atEnding) else return false

def block (r : Rules) : Parser Unit :=
  node .block do
    mark "\x7b"
    if !(← sees "\x7d") then statementList r
    mark "\x7d"

/-- The statements of a clause, if it has any. -/
def clauseBody (r : Rules) : Parser Unit := do
  if !(← atEnding) then statementList r

/-! ### Simple statements -/

def assignments : List String :=
  ["=", "*=", "/=", "%=", "<<=", ">>=", "&=", "&^=", "+=", "-=", "|=", "^="]

/-- The operator of an assignment or a definition. -/
def atAssignment : Parser Bool := do
  let l ← next
  return l.is ":=" || assignments.any (l.is ·)

/-- The left side of an assignment whose first expression was read. -/
def leftSide (r : Rules) (first : Piece) : Parser Piece :=
  pieceOf <| node .expressionList do
    propose first
    loop r.fuel do
      if ← sees "," then
        mark ","
        value r .inside
        return true
      else return false

/-- The rest of an assignment or a definition, from its operator. -/
def assignment (r : Rules) (left : Piece) (right : Context) : Parser Unit := do
  if ← sees ":=" then
    node .shortVarDeclaration do
      propose (left.as .left)
      mark ":="
      field .right (expressions r right right)
  else
    node .assignmentStatement do
      propose (left.as .left)
      if !(← atAssignment) then stuck
      field .operator (take .mark)
      field .right (expressions r right right)

/-- The rest of a simple statement whose first expression was read. -/
def simpleFrom (r : Rules) (first : Piece) (lineEnds : Bool) (right : Context) : Parser Unit := do
  let l ← next
  if lineEnds && l.startsLine then propose (.node .expressionStatement [first])
  else if l.is "," || (← atAssignment) then assignment r (← leftSide r first) right
  else if l.is "++" then
    skip
    propose (.node .incStatement [first, .mark])
  else if l.is "--" then
    skip
    propose (.node .decStatement [first, .mark])
  else if l.is "<-" then
    node .sendStatement do
      propose (first.as .channel)
      mark "<-"
      field .value (value r right)
  else propose (.node .expressionStatement [first])

/-- A simple statement; `left` surrounds its first expression and `right` those on the right. -/
def simpleStatement (r : Rules) (left right : Context) : Parser Unit := do
  simpleFrom r (← pieceOf (value r left)) left.lineEnds right

/-! ### Declarations -/

/-- Declarations in parentheses, each ended by a terminator. -/
def terminated (r : Rules) (item : Parser Unit) : Parser Unit := do
  mark "("
  loop r.fuel do
    if ← sees ")" then return false
    item
    if ← terminator? then return true else stuck
  mark ")"

/-- Names between commas. -/
def names (r : Rules) (one : Parser Unit) : Parser Unit := do
  one
  loop r.fuel do
    if ← sees "," then
      mark ","
      one
      return true
    else return false

def valueList (r : Rules) : Parser Unit := do
  mark "="
  field .value (expressions r .onLine .onLine)

def constSpec (r : Rules) : Parser Unit :=
  node .constSpec do
    field .name (names r (name .identifier))
    let l ← next
    if !l.startsLine then
      if l.is "=" then valueList r
      else if l.startsType then
        field .type (r.type true)
        valueList r

def varSpec (r : Rules) : Parser Unit :=
  node .varSpec do
    names r (field .name (name .identifier))
    if ← sees "=" then valueList r
    else
      field .type (r.type true)
      if (← sees "=") && !(← brokenHere true) then valueList r

def typeParameterDeclaration (r : Rules) : Parser Unit :=
  node .typeParameterDeclaration do
    names r (field .name (name .identifier))
    field .type (typeUnion r .typeConstraint false)

def typeParameters (r : Rules) : Parser Unit :=
  node .typeParameterList do
    mark "["
    typeParameterDeclaration r
    loop r.fuel do
      if ← sees "," then
        mark ","
        if ← sees "]" then return false
        typeParameterDeclaration r
        return true
      else return false
    mark "]"

/-- A defined type or an alias, from after its name. -/
def definedType (r : Rules) (head : Piece) : Parser Unit := do
  if ← sees "=" then
    node .typeAlias do
      propose head
      mark "="
      field .type (r.type true)
  else
    node .typeSpec do
      propose head
      field .type (r.type true)

/-- Runs both parsers and goes on with the heavier derivation, the second among equals. -/
def heavier (p q : Parser Unit) : Parser Unit := fun c =>
  match p c, q c with
  | .ok (_, a), .ok (_, b) =>
    if b.piece.weight < a.piece.weight then .ok ((), a) else .ok ((), b)
  | .ok r, .error _ => .ok r
  | .error _, .ok r => .ok r
  | .error e, .error e' => .error (e.further e')

def typeSpec (r : Rules) : Parser Unit := do
  let named ← pieceOf (field .name (name .typeIdentifier))
  match ← ahead with
  | open_ :: l :: _ =>
    if open_.is "[" && !l.is "]" then
      heavier
        (node .typeSpec do
          propose named
          field .type (r.type true))
        (do
          let parameters ← pieceOf (field .typeParameters (typeParameters r))
          definedType r (named ++ parameters))
    else definedType r named
  | _ => stuck

/-- A declaration of constants, variables or types. -/
def declaration (r : Rules) : Parser Unit := do
  let l ← next
  if l.is "const" then
    node .constDeclaration do
      mark "const"
      if ← sees "(" then terminated r (constSpec r) else constSpec r
  else if l.is "var" then
    node .varDeclaration do
      mark "var"
      if ← sees "(" then node .varSpecList (terminated r (varSpec r)) else varSpec r
  else
    node .typeDeclaration do
      mark "type"
      if ← sees "(" then
        mark "("
        loop r.fuel do
          if ← sees ")" then return false
          typeSpec r
          terminator?
        mark ")"
      else typeSpec r

/-! ### Headers -/

/-- The first expression of a header. -/
def headerFirst (braces : Braces) : Context := ⟨false, braces, true, true, false⟩

/-- An expression directly before the block of a statement. -/
def headerLast (braces : Braces) : Context := ⟨false, braces, false, false, false⟩

/-- Does another statement follow in the list? -/
def followed : Parser Bool :=
  succeeds do
    if !(← terminator?) || (← atEnding) then stuck
    if (← atLabel) && (((← ahead).drop 2).head?.map Ending).getD false then stuck

/-- May a brace that was taken for a composite literal be the block after all? In the first statement
of a list it is, if the braces after it are a block of their own, another statement follows, and the
literal does not weigh more. `guess` is where the statement with the literal ends. -/
def blockInstead (r : Rules) (guess : Cursor) : Parser Unit := do
  if !(← terminator?) then stuck
  block r
  let rest ← ahead
  if !(← followed) || rest.length != guess.rest.length then stuck

/-- Parses a statement with a header. A brace after a qualified or generic name is first taken for a
composite literal; if the statement then gets stuck, for the block. -/
def headed (r : Rules) (p : Braces → Parser Unit) : Parser Unit := fun c =>
  let inner := { c with guessed := false }
  match p .either inner with
  | .ok (_, c') =>
    let literal := .ok ((), { c' with guessed := c.guessed })
    if c'.guessed && c.leading then
      match p .block inner with
      | .ok (_, b) =>
        match blockInstead r c' b with
        | .ok (_, b') =>
          if c'.piece.weight ≤ b'.piece.weight then .ok ((), { b with guessed := c.guessed })
          else literal
        | .error _ => literal
      | .error _ => literal
    else literal
  | .error e =>
    if e.guessed then
      match p .block inner with
      | .ok (_, c') => .ok ((), { c' with guessed := c.guessed })
      | .error e' => .error ((e.further e').outside c.guessed)
    else .error (e.outside c.guessed)

def ifStatement (r : Rules) (braces : Braces) : Parser Unit :=
  node .ifStatement do
    mark "if"
    let first ← pieceOf (value r (headerFirst braces))
    if ← sees "\x7b" then propose (first.as .condition)
    else
      field .initializer (simpleFrom r first false .inside)
      mark ";"
      field .condition (value r (headerLast braces))
    field .consequence (block r)
    if (← sees "else") && !(← brokenHere true) then
      mark "else"
      field .alternative (if ← sees "if" then r.statement else block r)

/-- The clauses of a loop, from after the initial statement. -/
def forClauseRest (r : Rules) (braces : Braces) : Parser Unit := do
  mark ";"
  if !(← sees ";") then field .condition (value r .inside)
  mark ";"
  if !(← sees "\x7b") then
    field .update (simpleStatement r (headerFirst braces) (headerLast braces))

/-- What stands between `for` and the block. -/
def forHeader (r : Rules) (braces : Braces) : Parser Unit := do
  let l ← next
  if l.is "range" then
    node .rangeClause do
      mark "range"
      field .right (value r (headerLast braces))
  else if l.is ";" then node .forClause (forClauseRest r braces)
  else if !l.is "\x7b" then
    let first ← pieceOf (value r (headerFirst braces))
    if ← sees "\x7b" then propose first
    else
      let ranged : Parser Unit :=
        node .rangeClause do
          propose ((← leftSide r first).as .left)
          if (← sees ":=") || (← sees "=") then take .mark else stuck
          mark "range"
          field .right (value r (headerLast braces))
      let counted : Parser Unit :=
        node .forClause do
          field .initializer (simpleFrom r first false .inside)
          forClauseRest r braces
      if (← sees ",") || (← sees ":=") || (← sees "=") then orTry ranged counted else counted

def forStatement (r : Rules) (braces : Braces) : Parser Unit :=
  node .forStatement do
    mark "for"
    forHeader r braces
    field .body (block r)

/-! ### Switches -/

def defaultCase (r : Rules) : Parser Unit :=
  node .defaultCase do
    mark "default"
    mark ":"
    clauseBody r

/-- Clauses in braces: `one` or the default clause. -/
def clauses (r : Rules) (one : Parser Unit) : Parser Unit := do
  mark "\x7b"
  loop r.fuel do
    if ← sees "default" then
      defaultCase r
      return true
    else if ← sees "case" then
      one
      return true
    else return false
  mark "\x7d"

def expressionCase (r : Rules) : Parser Unit :=
  node .expressionCase do
    mark "case"
    field .value (expressions r .inside .inside)
    mark ":"
    clauseBody r

def typeCase (r : Rules) : Parser Unit :=
  node .typeCase do
    mark "case"
    field .type (names r (r.type false))
    mark ":"
    clauseBody r

/-- Is the piece an expression whose last step applies an operator? -/
def isOperation (p : Piece) : Bool :=
  match p.steps with
  | .reduce .unaryExpression _ :: _ => true
  | .reduce .binaryExpression _ :: _ => true
  | _ => false

/-- The rest of a type switch, from its value, which has no operator: the dot would belong to its
last operand. -/
def typeSwitchRest (r : Rules) (value : Piece) : Parser Unit := do
  if isOperation value then stuck
  propose (value.as .value)
  mark "."
  mark "("
  mark "type"
  mark ")"
  clauses r (typeCase r)

/-- The rest of a switch, from its value; `head` is what stands before that. -/
def switchValue (r : Rules) (braces : Braces) (head : Piece) : Parser Unit := do
  if ← sees "\x7b" then
    node .expressionSwitchStatement do
      propose head
      clauses r (expressionCase r)
  else
    let first ← pieceOf (value r (headerFirst braces))
    if ← sees "\x7b" then
      node .expressionSwitchStatement do
        propose head
        propose (first.as .value)
        clauses r (expressionCase r)
    else if ← sees "." then
      node .typeSwitchStatement do
        propose head
        typeSwitchRest r first
    else
      node .typeSwitchStatement do
        propose head
        propose ((← leftSide r first).as .binder)
        mark ":="
        typeSwitchRest r (← pieceOf (value r .inside))

/-- A switch whose value comes after an initial statement. -/
def switchWithInitializer (r : Rules) (braces : Braces) : Parser Unit := do
  let head ← pieceOf do
    mark "switch"
    field .initializer (simpleStatement r (headerFirst braces) .inside)
    mark ";"
  switchValue r braces head

def switchStatement (r : Rules) (braces : Braces) : Parser Unit :=
  orTry
    (do
      let head ← pieceOf (mark "switch")
      switchValue r braces head)
    (switchWithInitializer r braces)

/-- The statement that a clause of a `select` waits for. -/
def communication (r : Rules) : Parser Unit := do
  let first ← pieceOf (value r { Context.inside with maySend := true })
  if ← sees "<-" then
    node .sendStatement do
      propose (first.as .channel)
      mark "<-"
      field .value (value r .inside)
  else
    node .receiveStatement do
      if ← sees ":" then propose (first.as .right)
      else
        propose ((← leftSide r first).as .left)
        if (← sees ":=") || (← sees "=") then take .mark else stuck
        field .right (value r .inside)

def communicationCase (r : Rules) : Parser Unit :=
  node .communicationCase do
    mark "case"
    field .communication (communication r)
    mark ":"
    clauseBody r

/-! ### Statements -/

/-- A keyword with an optional label on the same line. -/
def jump (kind : Kind) (keyword : String) : Parser Unit :=
  node kind do
    mark keyword
    let l ← next
    if l.isName && !l.startsLine then take .labelName

def returnStatement (r : Rules) : Parser Unit :=
  node .returnStatement do
    mark "return"
    let l ← next
    if !(l.startsLine || l.is ";" || l.shape == .nul || Ending l) then
      expressions r .onLine .onLine

def statement (r : Rules) : Parser Unit := do
  let l ← next
  if l.is ";" then node .emptyStatement (mark ";")
  else if l.is "\x7b" then block r
  else if l.is "const" || l.is "var" || l.is "type" then declaration r
  else if l.is "return" then returnStatement r
  else if l.is "go" then
    node .goStatement do
      mark "go"
      value r .onLine
  else if l.is "defer" then
    node .deferStatement do
      mark "defer"
      value r .onLine
  else if l.is "if" then headed r (ifStatement r)
  else if l.is "for" then headed r (forStatement r)
  else if l.is "switch" then headed r (switchStatement r)
  else if l.is "select" then
    node .selectStatement do
      mark "select"
      clauses r (communicationCase r)
  else if l.is "fallthrough" then node .fallthroughStatement (mark "fallthrough")
  else if l.is "break" then jump .breakStatement "break"
  else if l.is "continue" then jump .continueStatement "continue"
  else if l.is "goto" then
    node .gotoStatement do
      mark "goto"
      name .labelName
  else if ← atLabel then
    node .labeledStatement do
      label
      r.statement
  else simpleStatement r ⟨true, .literal, true, true, false⟩ .onLine

/-! ### Files -/

/-- The body of a function, on the line where its declaration ends. -/
def functionBody (r : Rules) : Parser Unit := do
  if (← sees "\x7b") && !(← brokenHere true) then field .body (block r)

def functionDeclaration (r : Rules) : Parser Unit :=
  node .functionDeclaration do
    mark "func"
    field .name (name .identifier)
    if ← sees "[" then field .typeParameters (typeParameters r)
    signature r true
    functionBody r

def methodDeclaration (r : Rules) : Parser Unit :=
  node .methodDeclaration do
    mark "func"
    field .receiver (parameters r)
    field .name (name .fieldIdentifier)
    signature r true
    functionBody r

def importSpec : Parser Unit :=
  node .importSpec do
    let l ← next
    if l.is "." then field .name (node .dot (mark "."))
    else if l.is "_" then field .name (take .blankIdentifier)
    else if l.isName then field .name (take .packageIdentifier)
    field .path string

def importDeclaration (r : Rules) : Parser Unit :=
  node .importDeclaration do
    mark "import"
    if ← sees "(" then
      node .importSpecList do
        mark "("
        loop r.fuel do
          if ← sees ")" then return false
          importSpec
          terminator?
        mark ")"
    else importSpec

/-- A declaration that may end a file without a terminator, or a statement, which may not; says
which it was. -/
def topLevel (r : Rules) : Parser Bool := do
  let l ← next
  let follower := (← ahead).tail.head?.getD default
  if l.is "package" then
    node .packageClause do
      mark "package"
      name .packageIdentifier
    return true
  else if l.is "import" then
    importDeclaration r
    return true
  else if l.is "func" && follower.isName then
    functionDeclaration r
    return true
  else if l.is "func" then
    orTry
      (do
        methodDeclaration r
        return true)
      (do
        statement r
        return false)
  else
    statement r
    return false

def sourceFile (r : Rules) : Parser Unit :=
  node .sourceFile do
    loop r.fuel do
      if (← next).shape == .eof then return false
      let isDeclaration ← topLevel r
      if ← terminator? then return true
      else if isDeclaration && (← next).shape == .eof then return false
      else stuck

/-! ### All rules together -/

/-- The rules of one level, given those of the next level further in. -/
def around (r : Rules) : Rules where
  fuel := r.fuel + 1
  expr := expression r
  type := type r
  literal := literalValue r
  block := block r
  statement := statement r

/-- The rules for phrases nested at most `n` deep. -/
def rulesTo : Nat → Rules
  | 0 => ⟨0, fun _ => stuck, fun _ => stuck, stuck, stuck, stuck⟩
  | n + 1 => around (rulesTo n)

/-- Proposes a derivation for the lexemes of a file. No phrase nests deeper than the rules allow,
since each level takes a lexeme. -/
def proposeFile (lexemes : List Lexeme) : Except Stuck (List Step) :=
  match sourceFile (rulesTo (3 * lexemes.length + 8)) ⟨lexemes, .nil, false, false⟩ with
  | .ok (_, c) => .ok c.piece.steps.reverse
  | .error e => .error e

end SwitchLint.Go.Grammar
