import SwitchLint.Go.Grammar.Cursor

/-!
The types of Go. `lineEnds` says whether a line break ends the type once it is complete.
-/

namespace SwitchLint.Go.Grammar

open SwitchLint.Go.Grammar.Parser

/-- A type name with an optional package; says whether it had none. -/
def typeName (lineEnds : Bool) : Parser Bool := do
  let lexemes ← ahead
  let qualified : Bool :=
    match lexemes with
    | _ :: dot :: rest =>
      dot.is "." && !(lineEnds && dot.startsLine) && (rest.head?.map (·.isName)).getD false
    | _ => false
  if qualified then
    node .qualifiedType do
      field .package (name .packageIdentifier)
      mark "."
      field .name (name .typeIdentifier)
    return false
  else
    name .typeIdentifier
    return true

/-- Types joined by `|`. -/
def typeUnion (r : Rules) (kind : Kind) (lineEnds : Bool) : Parser Unit :=
  node kind do
    r.type lineEnds
    loop r.fuel do
      if (← sees "|") && !(← brokenHere lineEnds) then
        mark "|"
        r.type lineEnds
        return true
      else return false

def typeArguments (r : Rules) : Parser Unit :=
  node .typeArguments do
    mark "["
    typeUnion r .typeElem false
    loop r.fuel do
      if ← sees "," then
        mark ","
        if ← sees "]" then return false
        typeUnion r .typeElem false
        return true
      else return false
    mark "]"

/-- A type name with optional type arguments. A bare identifier weighs `bare`. -/
def namedType (r : Rules) (bare : Int) (lineEnds : Bool) : Parser Unit := do
  let (lone, piece) ← capture (typeName lineEnds)
  if (← sees "[") && !(← brokenHere lineEnds) then
    node .genericType do
      propose (piece.as .type)
      field .typeArguments (typeArguments r)
  else propose (if lone then piece.weigh bare else piece)

/-! ### Parameters -/

/-- An entry of a parameter list. A lone name is a type, unless a name with a type follows in its
group. -/
inductive Entry where
  | lone
  | declared (type : Piece)
  | typed (type : Piece)
  | variadic (declaration : Piece)

/-- The declarations of a list of entries, the latest `pending` of which were lone names. -/
def declarations (pending : Nat) : List Entry → List Piece
  | [] => types pending
  | .lone :: es => declarations (pending + 1) es
  | .declared type :: es =>
    let names := List.replicate (pending + 1) ((Piece.leaf .identifier).as .name)
    Piece.node .parameterDeclaration (Piece.separated names ++ [type.as .type]) ::
      declarations 0 es
  | .typed type :: es =>
    types pending ++ Piece.node .parameterDeclaration [type.as .type] :: declarations 0 es
  | .variadic declaration :: es => types pending ++ declaration :: declarations 0 es
where
  /-- Lone names that are types. -/
  types (n : Nat) : List Piece :=
    List.replicate n
      (Piece.node .parameterDeclaration [((Piece.leaf .typeIdentifier).weigh (-1)).as .type])

/-- Does an entry of a parameter list end here? -/
def entryEnds : Parser Bool := do
  return (← sees ",") || (← sees ")")

def entry (r : Rules) : Parser Entry := do
  let l ← next
  if l.is "..." then
    skip
    let type ← pieceOf (r.type false)
    return .variadic (Piece.node .variadicParameterDeclaration [.mark, type.as .type])
  else if l.isName then
    let follower := (← ahead).tail.head?.getD default
    if follower.is "," || follower.is ")" then
      skip
      return .lone
    else if follower.is "." then return .typed (← pieceOf (r.type false))
    else if follower.is "..." then
      skip
      skip
      let type ← pieceOf (r.type false)
      return .variadic
        (Piece.node .variadicParameterDeclaration
          [(Piece.leaf .identifier).as .name, .mark, type.as .type])
    else
      let declared : Parser Entry := do
        skip
        return .declared (← pieceOf (r.type false))
      if follower.is "[" then
        orTry
          (do
            let type ← pieceOf (namedType r (-1) false)
            if ← entryEnds then return .typed type else stuck)
          declared
      else declared
  else return .typed (← pieceOf (r.type false))

/-- A parameter list. Only the parenthesis that closes it tells names from types, so the entries are
collected first. -/
def parameters (r : Rules) : Parser Unit :=
  node .parameterList do
    mark "("
    let entries ← gather r.fuel do
      if ← entryEnds then return none
      let e ← entry r
      if ← sees "," then
        skip
        return some (e, true)
      else if ← sees ")" then return some (e, false)
      else stuck
    propose (Piece.concat (Piece.separated (declarations 0 (entries.map (·.1)))))
    if (entries.getLast?.map (·.2)).getD false then propose .mark
    else if entries.isEmpty && (← sees ",") then mark ","
    mark ")"

/-- The result of a function, if it has one. -/
def result (r : Rules) (lineEnds : Bool) : Parser Unit := do
  let l ← next
  if lineEnds && l.startsLine then return
  else if l.is "(" then field .result (parameters r)
  else if l.startsType then field .result (r.type lineEnds)

/-- Parameters and result. -/
def signature (r : Rules) (lineEnds : Bool) : Parser Unit := do
  field .parameters (parameters r)
  result r lineEnds

/-! ### Structures and interfaces -/

/-- Items in braces, each ended by a terminator that the last one may lack. -/
def bracedItems (r : Rules) (item : Parser Unit) : Parser Unit := do
  mark "\x7b"
  loop r.fuel do
    if ← sees "\x7d" then return false
    item
    terminator?
  mark "\x7d"

/-- Does the name of a field end its declaration? -/
def fieldEnds : Parser Bool := do
  let l ← next
  return l.startsLine || l.isString || l.is ";" || l.is "\x7d" || l.shape == .nul

/-- An embedded type: a type name with optional type arguments. -/
def embedded (r : Rules) : Parser Unit := do
  field .type (namedType r 0 true)
  if !(← fieldEnds) then stuck

/-- Field names and their type. -/
def namedFields (r : Rules) : Parser Unit := do
  field .name (name .fieldIdentifier)
  loop r.fuel do
    if ← sees "," then
      mark ","
      field .name (name .fieldIdentifier)
      return true
    else return false
  field .type (r.type true)

def fieldDeclaration (r : Rules) : Parser Unit :=
  node .fieldDeclaration do
    if ← sees "*" then
      mark "*"
      embedded r
    else orTry (embedded r) (namedFields r)
    if (← next).isString && !(← next).startsLine then field .tag string

def methodOrUnion (r : Rules) : Parser Unit := do
  let lexemes ← ahead
  let isMethod : Bool :=
    match lexemes with
    | name :: paren :: _ => name.isName && paren.is "(" && !paren.startsLine
    | _ => false
  if isMethod then
    node .methodElem do
      field .name (name .fieldIdentifier)
      signature r true
  else typeUnion r .typeElem true

/-! ### Types -/

/-- The direction mark of a channel that only sends; a mark before another `chan` belongs to that
one. -/
def sendOnly : Parser Unit := do
  match ← ahead with
  | arrow :: l :: _ => if arrow.is "<-" && !l.is "chan" then mark "<-"
  | _ => pure ()

/-- A type. -/
def type (r : Rules) (lineEnds : Bool) : Parser Unit := do
  let l ← next
  if l.isName then namedType r (-1) lineEnds
  else if l.is "(" then
    node .parenthesizedType do
      mark "("
      r.type false
      mark ")"
  else if l.is "*" then
    node .pointerType do
      mark "*"
      r.type lineEnds
  else if l.is "~" then
    let negated ← pieceOf <| node .negatedType do
      mark "~"
      r.type lineEnds
    if (← sees "[") && !(← brokenHere lineEnds) then
      node .genericType do
        propose (negated.as .type)
        field .typeArguments (typeArguments r)
    else propose negated
  else if l.is "struct" then
    node .structType do
      mark "struct"
      node .fieldDeclarationList (bracedItems r (fieldDeclaration r))
  else if l.is "interface" then
    node .interfaceType do
      mark "interface"
      bracedItems r (methodOrUnion r)
  else if l.is "[" then
    if ((← ahead).tail.head?.getD default).is "]" then
      node .sliceType do
        mark "["
        mark "]"
        field .element (r.type lineEnds)
    else
      node .arrayType do
        mark "["
        let length ← r.expr .inside
        match length.expr with
        | some p => propose (p.as .length)
        | none => stuck
        mark "]"
        field .element (r.type lineEnds)
  else if l.is "map" then
    let map ← pieceOf <| node .mapType do
      mark "map"
      mark "["
      field .key (r.type false)
      mark "]"
      field .value (r.type lineEnds)
    propose (map.weigh 3)
  else if l.is "chan" then
    node .channelType do
      mark "chan"
      sendOnly
      field .value (r.type lineEnds)
  else if l.is "<-" then
    node .channelType do
      mark "<-"
      mark "chan"
      field .value (r.type lineEnds)
  else if l.is "func" then
    node .functionType do
      mark "func"
      signature r lineEnds
  else stuck

end SwitchLint.Go.Grammar
