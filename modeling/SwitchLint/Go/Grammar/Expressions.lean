import SwitchLint.Go.Grammar.Types

/-!
The expressions of Go. Operands are read as expressions and as types at once, and the readings are
told apart as soon as something that follows fits one of them only; where it fits both, the heavier
derivation is taken.
-/

namespace SwitchLint.Go.Grammar

open SwitchLint.Go.Grammar.Parser

/-! ### Operators -/

/-- How tightly a binary operator binds. -/
def precedence : String → Option Nat
  | "*" | "/" | "%" | "<<" | ">>" | "&" | "&^" => some 5
  | "+" | "-" | "|" | "^" => some 4
  | "==" | "!=" | "<" | "<=" | ">" | ">=" => some 3
  | "&&" => some 2
  | "||" => some 1
  | _ => none

/-- An operator, cut from the next lexeme if need be, with what stands on its right. -/
structure Operation where
  precedence : Nat
  operator : Piece
  isUnion : Bool
  right : Reading

/-- The binary operator at the cursor. A longer mark is cut where it could not stand. -/
def binaryOperator? (ctx : Context) : Parser (Option (Nat × Piece × Bool)) := do
  let l ← next
  if l.shape != .mark then return none
  match precedence l.text with
  | some p =>
    skip
    return some (p, .mark, l.is "|")
  | none =>
    if (!ctx.mayStep && (l.is "++" || l.is "--")) || (!ctx.maySend && l.is "<-") then
      cutAhead 1
      let p := (precedence (← next).text).getD 0
      skip
      return some (p, .cut 1 ++ .mark, false)
    else return none

/-- A unary operator; is it a star? -/
structure UnaryOperator where
  piece : Piece
  isStar : Bool

/-- The unary operator at the cursor. An arrow that begins a channel type is none. -/
def unaryOperator? (r : Rules) : Parser (Option UnaryOperator) := do
  let l ← next
  if l.is "<-" && ((← ahead).tail.head?.getD default).is "chan" && (← succeeds (type r false)) then
    return none
  if ["+", "-", "!", "^", "*", "&", "<-"].any (l.is ·) then
    skip
    return some ⟨.mark, l.is "*"⟩
  else if ["++", "--", "&&", "&^"].any (l.is ·) then
    cutAhead 1
    skip
    return some ⟨.cut 1 ++ .mark, false⟩
  else return none

/-- A reading with a unary operator before it; only a star also makes a type of a type. -/
def UnaryOperator.apply (op : UnaryOperator) (x : Reading) : Reading where
  expr := x.expr.map fun e => .node .unaryExpression [op.piece.as .operator, e.as .operand]
  type := if op.isStar then x.type.map fun t => .node .pointerType [.mark, t] else none

/-- The pointer type with `n` stars before `t`. -/
def starred (t : Piece) : Nat → Piece
  | 0 => t
  | n + 1 => .node .pointerType [.mark, starred t n]

/-- Applies the operations of precedence `p` among those that follow `left`, from left to right. -/
def applyLevel (p : Nat) (left : Piece) : List (Nat × Piece × Piece) →
    Piece × List (Nat × Piece × Piece)
  | [] => (left, [])
  | (q, operator, right) :: ops =>
    if q = p then
      applyLevel p
        (.node .binaryExpression [left.as .left, operator.as .operator, right.as .right]) ops
    else
      let (right', ops') := applyLevel p right ops
      (left, (q, operator, right') :: ops')

/-- An operand with the operations that follow it, tighter ones first. -/
def applyAll (left : Piece) (ops : List (Nat × Piece × Piece)) : Piece :=
  ([5, 4, 3, 2, 1].foldl (fun s p => applyLevel p s.1 s.2) (left, ops)).1

/-! ### Lists in brackets -/

/-- The expression at the cursor. -/
def value (r : Rules) (ctx : Context) : Parser Unit := do
  match (← r.expr ctx).expr with
  | some p => propose p
  | none => stuck

/-- The arguments of a call; a single plain one may also be the operand of a conversion. -/
structure Arguments where
  list : Piece
  single : Option (List Piece)
  weight : Int

def arguments (r : Rules) : Parser Arguments := do
  if !(← sees "(") then stuck
  skip
  let items ← gather r.fuel do
    if ← sees ")" then return none
    match (← r.expr .inside).expr with
    | none => stuck
    | some e =>
      let spread ← sees "..."
      if spread then skip
      if ← sees "," then
        skip
        return some (e, spread, true)
      else if ← sees ")" then return some (e, spread, false)
      else stuck
  skip
  let trailing := (items.getLast?.map (·.2.2)).getD false
  let close : List Piece := if trailing then [.mark, .mark] else [.mark]
  let nodes := items.map fun (e, spread, _) =>
    if spread then .node .variadicArgument [e, .mark] else e
  return {
    list := .node .argumentList (.mark :: Piece.separated nodes ++ close)
    single :=
      match items with
      | [(e, false, _)] => some (.mark :: e.as .operand :: close)
      | _ => none
    weight := (items.map (·.1.weight)).foldl (· + ·) 0 }

/-- The arguments of a function whose first argument is a type. -/
def typeFirstArguments (r : Rules) : Parser Unit :=
  node .argumentList do
    mark "("
    if !(← sees ")") then
      r.type false
      loop r.fuel do
        if ← sees "," then
          mark ","
          if ← sees ")" then return false
          value r .inside
          return true
        else return false
    mark ")"

/-- The elements between brackets, which are expressions or types; was there a last comma? Only the
first one may have to be an expression. -/
def elements (r : Rules) (ctx : Context) : Parser (List Reading × Bool) := do
  let first ← r.expr ctx
  let more ← gather r.fuel do
    if ← sees "," then
      skip
      if ← sees "]" then return some none
      return some (some (← r.expr { ctx with allNames := true }))
    else return none
  return (first :: more.filterMap id, more.any (·.isNone))

/-! ### Composite literals -/

def literalElement (r : Rules) : Parser Unit :=
  node .literalElement do
    if ← sees "\x7b" then r.literal else value r .inside

/-- An element of a composite literal, with or without a key. -/
def keyedElement (r : Rules) : Parser Unit := do
  let first ← pieceOf (literalElement r)
  if ← sees ":" then
    node .keyedElement do
      propose (first.as .key)
      mark ":"
      field .value (literalElement r)
  else propose first

def literalValue (r : Rules) : Parser Unit :=
  node .literalValue do
    mark "\x7b"
    if ← sees "," then mark ","
    else
      loop r.fuel do
        if ← sees "\x7d" then return false
        keyedElement r
        if ← sees "," then
          mark ","
          return true
        else return false
    mark "\x7d"

/-! ### Names -/

/-- A reading as an expression only. -/
def exprOnly (p : Piece) : Reading := { expr := some p }

/-- A word that names a type wherever a type may stand. -/
def asName (x : Reading) : Reading :=
  { x with
    type := some ((Piece.leaf .typeIdentifier).weigh (-1))
    name := some (.leaf .typeIdentifier)
    literal := some (.leaf .typeIdentifier)
    lone := true }

/-- A word as an operand. -/
def wordOperand (r : Rules) (ctx : Context) : Parser Reading := do
  let l ← next
  skip
  match valueLeaf l.text with
  | some as => return if ctx.allNames then asName (exprOnly (.leaf as)) else exprOnly (.leaf as)
  | none =>
    let plain := exprOnly (.leaf .identifier)
    if takesType l.text then
      if (← sees "(") && !(← brokenHere ctx.lineEnds) then
        let arguments ← pieceOf (typeFirstArguments r)
        return exprOnly (.node .callExpression
          [(Piece.leaf .identifier).as .function, arguments.as .arguments])
      else return if ctx.allNames then asName plain else plain
    else return asName plain

/-! ### Selectors and brackets -/

/-- The reading of an expression that `x` is the beginning of. -/
def Reading.asExpr (x : Reading) (p : Piece) : Reading := { expr := some p, absorbed := x.absorbed }

/-- A selected field; a lone name before it may be a package. -/
def selected (x : Reading) : Parser Reading := do
  skip
  name .fieldIdentifier |> pieceOf |> discard
  let qualified : Option Piece :=
    if x.lone then
      some (.node .qualifiedType
        [(Piece.leaf .packageIdentifier).as .package, .mark, (Piece.leaf .typeIdentifier).as .name])
    else none
  return {
    absorbed := x.absorbed
    expr := x.expr.map fun e =>
      .node .selectorExpression [e.as .operand, .mark, (Piece.leaf .fieldIdentifier).as .field]
    type := qualified
    name := qualified
    literal := qualified }

/-- A type assertion. -/
def asserted (r : Rules) (x : Reading) : Parser Reading := do
  match x.expr with
  | none => stuck
  | some e =>
    skip
    skip
    let type ← pieceOf (r.type false)
    if !(← sees ")") then stuck
    skip
    return x.asExpr
      (.node .typeAssertionExpression [e.as .operand, .mark, .mark, type.as .type, .mark])

/-- A slice, from after its start. -/
def sliced (r : Rules) (x : Reading) (start : Option Piece) : Parser Reading := do
  match x.expr with
  | none => stuck
  | some e =>
    let bounds ← pieceOf do
      mark ":"
      if !(← sees "]") then
        field .stop (value r .inside)
        if ← sees ":" then
          mark ":"
          field .capacity (value r .inside)
      mark "]"
    let start := (start.map (·.as .start)).getD .nil
    return x.asExpr (.node .sliceExpression [e.as .operand, .mark, start, bounds])

/-- An operand with an index, bounds of a slice or type arguments. Types that are no index take the
stars before the operand into the type that they belong to. -/
def bracketed (r : Rules) (x : Reading) (stars : Nat) : Parser Reading := do
  skip
  if ← sees ":" then sliced r x none
  else
    let (es, trailing) ← elements r { Context.inside with allNames := x.type.isSome }
    if ← sees ":" then
      match es, trailing with
      | [e], false => if e.expr.isSome then sliced r x e.expr else stuck
      | _, _ => stuck
    else
      if !(← sees "]") then stuck
      skip
      let close : List Piece := if trailing then [.mark, .mark] else [.mark]
      let index : Option Piece :=
        match es, trailing with
        | [e], false => do
          pure (.node .indexExpression [(← x.expr).as .operand, .mark, (← e.expr).as .index, .mark])
        | _, _ => none
      let instantiation : Option Piece := do
        let types ← es.mapM (·.type)
        pure (.node .typeInstantiationExpression
          ((starred (← x.type) stars).as .type :: .mark :: Piece.separated types ++ close))
      let arguments : Option Piece := do
        let types ← es.mapM (·.element)
        pure (.node .typeArguments (.mark :: Piece.separated types ++ close))
      let generic : Option Piece := do
        pure (.node .genericType [(← x.name).as .type, (← arguments).as .typeArguments])
      let isIndex : Bool :=
        match index, instantiation with
        | some p, some q => q.weight ≤ p.weight
        | _, _ => instantiation.isNone
      return {
        expr := if isIndex then index else instantiation
        absorbed := if isIndex then x.absorbed else true
        type := generic
        literal := generic
        applied := if x.absorbed then none else do
          pure ((← x.expr).as .function ++ (← arguments).as .typeArguments) }

/-! ### Operands -/

/-- Of lexemes given backwards, those before the bracket that opens the one `depth` further in. -/
def beforeBracket : Nat → List Lexeme → Option (List Lexeme)
  | _, [] => none
  | depth, l :: ls =>
    if l.is "]" then beforeBracket (depth + 1) ls
    else if l.is "[" then
      match depth with
      | 0 => none
      | 1 => some ls
      | depth + 1 => beforeBracket depth ls
    else beforeBracket depth ls

/-- What `p` gives for the lexemes alone, if it takes all of them. -/
def aside {α : Type} (lexemes : List Lexeme) (p : Parser α) : Parser (Option (α × Piece)) := fun c =>
  match p { c with rest := lexemes ++ [{ (default : Lexeme) with shape := .eof }], piece := .nil } with
  | .ok (a, c') => .ok (if c'.rest.length = 1 then some (a, c'.piece) else none, c)
  | .error _ => .ok (none, c)

/-- A type as an expression: the type arguments at its end may instead belong to all of it and the
stars before it. -/
def instantiated (r : Rules) (stars : Nat) (lexemes : List Lexeme) : Parser (Option Piece) := do
  match lexemes.getLast?, beforeBracket 0 lexemes.reverse with
  | some last, some before =>
    if !(last.is "]") || (← sees "\x7b") then return none
    match ← aside before.reverse (type r false) with
    | none => return none
    | some (_, bare) =>
      let brackets := lexemes.drop before.length
      match ← aside brackets (bracketed r { type := some bare } stars) with
      | some (x, _) => return x.expr
      | none => return none
  | _, _ => return none

/-- The lexemes that lead to the next one. -/
def leadingTo (lexemes : List Lexeme) : Parser (List Lexeme) := do
  let stop ← next
  return lexemes.takeWhile fun l => l.start.offset < stop.start.offset

/-- A type that is no expression, but for type arguments at its end. -/
def typeOperand (r : Rules) (stars : Nat) : Parser Reading := do
  let lexemes ← ahead
  let l ← next
  let piece ← pieceOf (type r false)
  let lexemes ← leadingTo lexemes
  let expr ← instantiated r stars lexemes
  let composite := ["map", "struct", "["].any (l.is ·)
    || (l.is "~" && lexemes.getLast?.any (·.is "]"))
  return {
    type := some piece
    literal := if composite then some piece else none
    expr := expr
    absorbed := true }

/-- A function literal, or a function type. -/
def functionOperand (r : Rules) (stars : Nat) : Parser Reading := do
  let lexemes ← ahead
  skip
  let head : Piece := .mark ++ (← pieceOf (signature r false))
  if ← sees "\x7b" then
    let body ← pieceOf r.block
    return exprOnly (.node .funcLiteral [head, body.as .body])
  else
    let expr ← instantiated r stars (← leadingTo lexemes)
    return { type := some (.node .functionType [head]), expr := expr, absorbed := true }

/-- An expression or a type in parentheses. -/
def parenthesizedOperand (r : Rules) (ctx : Context) : Parser Reading := do
  skip
  let x ← r.expr { Context.inside with allNames := ctx.allNames }
  if !(← sees ")") then stuck
  skip
  return {
    expr := x.expr.map fun e => .node .parenthesizedExpression [.mark, e, .mark]
    type := x.type.map fun t => .node .parenthesizedType [.mark, t, .mark] }

/-- An array type whose length is that of its literal. -/
def countedArray (r : Rules) : Parser Reading := do
  let piece ← pieceOf <| node .implicitLengthArrayType do
    mark "["
    mark "..."
    mark "]"
    field .element (r.type false)
  return { literal := some piece }

/-- An operand without what may follow it; `stars` are those directly before it. -/
def primary (r : Rules) (ctx : Context) (stars : Nat) : Parser Reading := do
  let l ← next
  let literal (as : Leaf) : Parser Reading := do
    skip
    return exprOnly (.leaf as)
  match l.shape with
  | .int => literal .intLiteral
  | .float => literal .floatLiteral
  | .imaginary => literal .imaginaryLiteral
  | .rune => literal .runeLiteral
  | .interpreted => literal .interpretedStringLiteral
  | .raw => literal .rawStringLiteral
  | .word =>
    if l.is "func" then functionOperand r stars
    else if l.isName then wordOperand r ctx
    else if ["map", "struct", "chan", "interface"].any (l.is ·) then typeOperand r stars
    else stuck
  | .mark =>
    if l.is "(" then parenthesizedOperand r ctx
    else if l.is "[" && ((← ahead).tail.head?.getD default).is "..." then countedArray r
    else if l.is "[" || l.is "~" || l.is "<-" then typeOperand r stars
    else stuck
  | .nul => stuck
  | .unknown => stuck
  | .eof => stuck

/-! ### Calls -/

/-- The conversion of a single argument to the type of a reading with stars before it. -/
def conversion (x : Reading) (stars : Nat) (args : Arguments) : Option Piece := do
  let operand ← args.single
  pure (.node .typeConversionExpression ((starred (← x.type) stars).as .type :: operand))

/-- A call. -/
def call? (x : Reading) (args : Arguments) : Option Reading :=
  let plain := x.expr.map fun e => .node .callExpression [e.as .function, args.list.as .arguments]
  let applied := x.applied.map fun a => .node .callExpression [a, args.list.as .arguments]
  match plain, applied with
  | some p, some q => some (if q.weight ≤ p.weight then x.asExpr p else exprOnly q)
  | some p, none => some (x.asExpr p)
  | none, q => q.map exprOnly

/-- The arguments after an operand make a call or a conversion; a conversion takes the stars before
the operand into its type. -/
def invoked (r : Rules) (x : Reading) (stars : Nat) : Parser Reading := do
  let args ← arguments r
  match conversion x stars args, call? x args with
  | some c, some y =>
    return if (y.expr.map (·.weight)).getD 0 ≤ c.weight then { expr := some c, absorbed := true } else y
  | some c, none => return { expr := some c, absorbed := true }
  | none, some y => return y
  | none, none => stuck

/-- A conversion whose operand stands on a new line, where the line could also have ended. -/
def invokedOnNewLine (r : Rules) (x : Reading) (stars : Nat) : Parser Reading := do
  let args ← arguments r
  match conversion x stars args, x.expr with
  | some c, some e =>
    if e.weight + args.weight ≤ c.weight then return { expr := some c, absorbed := true } else stuck
  | _, _ => stuck

/-- A composite literal of a type. -/
def composite (type : Piece) (body : Piece) : Reading :=
  exprOnly (.node .compositeLiteral [type.as .type, body.as .body])

/-- Marks that a brace was taken for a literal where a block was possible. -/
def guess : Parser Unit := fun c => .ok ((), { c with guessed := true })

/-- Reads all that follows an operand. `stars` are those directly before it. -/
def suffixes (r : Rules) (ctx : Context) (stars : Nat) : Nat → Reading → Parser Reading
  | 0, _ => stuck
  | fuel + 1, x => do
    let more (y : Reading) : Parser Reading := suffixes r ctx stars fuel y
    let l ← next
    let broken := ctx.lineEnds && l.startsLine && x.expr.isSome
    if l.is "." then
      match broken, (← ahead).tail with
      | false, a :: b :: _ =>
        if a.is "(" then
          if b.is "type" then return x else more (← asserted r x)
        else if x.expr.isSome then more (← selected x)
        else stuck
      | _, _ => return x
    else if l.is "[" then
      if broken then return x else more (← bracketed r x stars)
    else if l.is "(" then
      if broken then
        match ← attempt (invokedOnNewLine r x stars) with
        | some y => more y
        | none => return x
      else more (← invoked r x stars)
    else if l.is "\x7b" then
      match x.literal with
      | none => return x
      | some type =>
        if x.expr.isNone || (!broken && ctx.braces = .literal) then
          more (composite type (← pieceOf r.literal))
        else if x.lone || ctx.braces = .block then return x
        else
          match ← attempt (pieceOf r.literal) with
          | some body =>
            if !broken then guess
            more (composite type body)
          | none => return x
    else return x

/-! ### Expressions -/

/-- An operand with all that follows it and the unary operators before it. -/
def unary (r : Rules) (ctx : Context) : Parser Reading := do
  let ops ← gather r.fuel (unaryOperator? r)
  let stars := (ops.reverse.takeWhile (·.isStar)).length
  let x ← suffixes r ctx stars r.fuel (← primary r ctx stars)
  let y := ops.foldr UnaryOperator.apply { x with absorbed := false }
  if x.absorbed then
    let apart := (ops.take (ops.length - stars)).foldr UnaryOperator.apply (exprOnly (x.expr.getD .nil))
    return { y with expr := if x.expr.isSome then apart.expr else none }
  else return y

/-- An expression or a type. -/
def expression (r : Rules) (ctx : Context) : Parser Reading := do
  let first ← unary r ctx
  let operations : List Operation ← gather r.fuel do
    if first.expr.isSome && (← brokenHere ctx.lineEnds) then return none
    if first.expr.isNone && !(← sees "|") then return none
    match ← binaryOperator? ctx with
    | none => return none
    | some (p, operator, isUnion) =>
      let right ← unary r { ctx with allNames := ctx.allNames || isUnion }
      return some { precedence := p, operator, isUnion, right }
  if operations.isEmpty then
    return { first with element := first.type.map fun t => .node .typeElem [t] }
  else
    let expr : Option Piece := do
      let ops ← operations.mapM fun o => do pure (o.precedence, o.operator, ← o.right.expr)
      pure (applyAll (← first.expr) ops)
    let element : Option Piece := do
      guard (operations.all (·.isUnion))
      let types ← operations.mapM (·.right.type)
      pure (.node .typeElem (Piece.separated ((← first.type) :: types)))
    return { expr, element }

/-- Expressions between commas; only the first sees what may follow a lone one. -/
def expressions (r : Rules) (first others : Context) : Parser Unit :=
  node .expressionList do
    value r first
    loop r.fuel do
      if ← sees "," then
        mark ","
        value r others
        return true
      else return false

end SwitchLint.Go.Grammar
