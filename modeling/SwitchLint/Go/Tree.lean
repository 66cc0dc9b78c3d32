import SwitchLint.Go.Lexeme

/-!
Concrete syntax of Go: trees whose leaves are the lexemes of a source in order. A node has a kind,
and each of its children may fill a named field. Nothing is stored about the place of a node: its
range runs from its first leaf to its last.
-/

namespace SwitchLint.Go

/-- What an inner node of a tree is. -/
inductive Kind where
  | sourceFile
  | packageClause
  | importDeclaration
  | importSpec
  | importSpecList
  | dot
  | constDeclaration
  | constSpec
  | varDeclaration
  | varSpec
  | varSpecList
  | functionDeclaration
  | methodDeclaration
  | typeParameterList
  | typeParameterDeclaration
  | typeConstraint
  | parameterList
  | parameterDeclaration
  | variadicParameterDeclaration
  | typeAlias
  | typeDeclaration
  | typeSpec
  | expressionList
  | parenthesizedType
  | genericType
  | typeArguments
  | typeElem
  | pointerType
  | arrayType
  | implicitLengthArrayType
  | sliceType
  | structType
  | negatedType
  | fieldDeclarationList
  | fieldDeclaration
  | interfaceType
  | methodElem
  | mapType
  | channelType
  | functionType
  | qualifiedType
  | block
  | statementList
  | emptyStatement
  | expressionStatement
  | sendStatement
  | receiveStatement
  | incStatement
  | decStatement
  | assignmentStatement
  | shortVarDeclaration
  | labeledStatement
  | fallthroughStatement
  | breakStatement
  | continueStatement
  | gotoStatement
  | returnStatement
  | goStatement
  | deferStatement
  | ifStatement
  | forStatement
  | forClause
  | rangeClause
  | expressionSwitchStatement
  | expressionCase
  | defaultCase
  | typeSwitchStatement
  | typeCase
  | selectStatement
  | communicationCase
  | parenthesizedExpression
  | callExpression
  | variadicArgument
  | argumentList
  | selectorExpression
  | indexExpression
  | sliceExpression
  | typeAssertionExpression
  | typeConversionExpression
  | typeInstantiationExpression
  | compositeLiteral
  | literalValue
  | literalElement
  | keyedElement
  | funcLiteral
  | unaryExpression
  | binaryExpression
  deriving DecidableEq, Repr, Inhabited

/-- The name by which a kind is known outside the tree. -/
def Kind.name : Kind → String
  | .sourceFile => "source_file"
  | .packageClause => "package_clause"
  | .importDeclaration => "import_declaration"
  | .importSpec => "import_spec"
  | .importSpecList => "import_spec_list"
  | .dot => "dot"
  | .constDeclaration => "const_declaration"
  | .constSpec => "const_spec"
  | .varDeclaration => "var_declaration"
  | .varSpec => "var_spec"
  | .varSpecList => "var_spec_list"
  | .functionDeclaration => "function_declaration"
  | .methodDeclaration => "method_declaration"
  | .typeParameterList => "type_parameter_list"
  | .typeParameterDeclaration => "type_parameter_declaration"
  | .typeConstraint => "type_constraint"
  | .parameterList => "parameter_list"
  | .parameterDeclaration => "parameter_declaration"
  | .variadicParameterDeclaration => "variadic_parameter_declaration"
  | .typeAlias => "type_alias"
  | .typeDeclaration => "type_declaration"
  | .typeSpec => "type_spec"
  | .expressionList => "expression_list"
  | .parenthesizedType => "parenthesized_type"
  | .genericType => "generic_type"
  | .typeArguments => "type_arguments"
  | .typeElem => "type_elem"
  | .pointerType => "pointer_type"
  | .arrayType => "array_type"
  | .implicitLengthArrayType => "implicit_length_array_type"
  | .sliceType => "slice_type"
  | .structType => "struct_type"
  | .negatedType => "negated_type"
  | .fieldDeclarationList => "field_declaration_list"
  | .fieldDeclaration => "field_declaration"
  | .interfaceType => "interface_type"
  | .methodElem => "method_elem"
  | .mapType => "map_type"
  | .channelType => "channel_type"
  | .functionType => "function_type"
  | .qualifiedType => "qualified_type"
  | .block => "block"
  | .statementList => "statement_list"
  | .emptyStatement => "empty_statement"
  | .expressionStatement => "expression_statement"
  | .sendStatement => "send_statement"
  | .receiveStatement => "receive_statement"
  | .incStatement => "inc_statement"
  | .decStatement => "dec_statement"
  | .assignmentStatement => "assignment_statement"
  | .shortVarDeclaration => "short_var_declaration"
  | .labeledStatement => "labeled_statement"
  | .fallthroughStatement => "fallthrough_statement"
  | .breakStatement => "break_statement"
  | .continueStatement => "continue_statement"
  | .gotoStatement => "goto_statement"
  | .returnStatement => "return_statement"
  | .goStatement => "go_statement"
  | .deferStatement => "defer_statement"
  | .ifStatement => "if_statement"
  | .forStatement => "for_statement"
  | .forClause => "for_clause"
  | .rangeClause => "range_clause"
  | .expressionSwitchStatement => "expression_switch_statement"
  | .expressionCase => "expression_case"
  | .defaultCase => "default_case"
  | .typeSwitchStatement => "type_switch_statement"
  | .typeCase => "type_case"
  | .selectStatement => "select_statement"
  | .communicationCase => "communication_case"
  | .parenthesizedExpression => "parenthesized_expression"
  | .callExpression => "call_expression"
  | .variadicArgument => "variadic_argument"
  | .argumentList => "argument_list"
  | .selectorExpression => "selector_expression"
  | .indexExpression => "index_expression"
  | .sliceExpression => "slice_expression"
  | .typeAssertionExpression => "type_assertion_expression"
  | .typeConversionExpression => "type_conversion_expression"
  | .typeInstantiationExpression => "type_instantiation_expression"
  | .compositeLiteral => "composite_literal"
  | .literalValue => "literal_value"
  | .literalElement => "literal_element"
  | .keyedElement => "keyed_element"
  | .funcLiteral => "func_literal"
  | .unaryExpression => "unary_expression"
  | .binaryExpression => "binary_expression"

/-- The part that a child plays in its node. -/
inductive Field where
  | name
  | path
  | type
  | value
  | typeParameters
  | parameters
  | result
  | body
  | receiver
  | length
  | element
  | key
  | tag
  | typeArguments
  | channel
  | left
  | right
  | operator
  | label
  | initializer
  | condition
  | consequence
  | alternative
  | update
  | binder
  | communication
  | function
  | arguments
  | operand
  | field
  | index
  | start
  | stop
  | capacity
  | package
  deriving DecidableEq, Repr, Inhabited

/-- What a leaf stands for. A `mark` is a fixed spelling: a keyword, an operator or punctuation. -/
inductive Leaf where
  | mark
  | lineBreak
  | identifier
  | fieldIdentifier
  | typeIdentifier
  | packageIdentifier
  | labelName
  | blankIdentifier
  | intLiteral
  | floatLiteral
  | imaginaryLiteral
  | runeLiteral
  | interpretedStringLiteral
  | rawStringLiteral
  | nilValue
  | trueValue
  | falseValue
  | iotaValue
  deriving DecidableEq, Repr, Inhabited

namespace Leaf

/-- The name of a leaf with the given text; a mark is named by its spelling. -/
def name (text : String) : Leaf → String
  | mark => text
  | lineBreak => "\n"
  | identifier => "identifier"
  | fieldIdentifier => "field_identifier"
  | typeIdentifier => "type_identifier"
  | packageIdentifier => "package_identifier"
  | labelName => "label_name"
  | blankIdentifier => "blank_identifier"
  | intLiteral => "int_literal"
  | floatLiteral => "float_literal"
  | imaginaryLiteral => "imaginary_literal"
  | runeLiteral => "rune_literal"
  | interpretedStringLiteral => "interpreted_string_literal"
  | rawStringLiteral => "raw_string_literal"
  | nilValue => "nil"
  | trueValue => "true"
  | falseValue => "false"
  | iotaValue => "iota"

/-- Is the leaf a syntactic unit of its own, not a fixed spelling? -/
def isNamed : Leaf → Bool
  | mark => false
  | lineBreak => false
  | _ => true

end Leaf

/-- A concrete syntax tree. -/
inductive Tree where
  | leaf (as : Leaf) (lexeme : Lexeme)
  | node (kind : Kind) (children : List (Option Field × Tree))
  deriving Inhabited

namespace Tree

/-- The range of a leaf; the range of a line break is that of its line feeds. -/
def leafSpan : Leaf → Lexeme → Span
  | .lineBreak, l => (l.newline.map fun b => b.start.upTo b.stop).getD l.span
  | _, l => l.span

mutual

/-- The leaves of a tree, from left to right. -/
def leaves : Tree → List (Leaf × Lexeme)
  | leaf as l => [(as, l)]
  | node _ cs => childLeaves cs

/-- The leaves of a list of children, from left to right. -/
def childLeaves : List (Option Field × Tree) → List (Leaf × Lexeme)
  | [] => []
  | c :: cs => leaves c.2 ++ childLeaves cs

end

mutual

/-- The range of the first leaf. -/
def first? : Tree → Option Span
  | leaf as l => some (leafSpan as l)
  | node _ cs => firstOf? cs

/-- The range of the first leaf among the children. -/
def firstOf? : List (Option Field × Tree) → Option Span
  | [] => none
  | c :: cs =>
    match first? c.2 with
    | some s => some s
    | none => firstOf? cs

end

mutual

/-- The range of the last leaf. -/
def last? : Tree → Option Span
  | leaf as l => some (leafSpan as l)
  | node _ cs => lastOf? cs

/-- The range of the last leaf among the children. -/
def lastOf? : List (Option Field × Tree) → Option Span
  | [] => none
  | c :: cs =>
    match lastOf? cs with
    | some s => some s
    | none => last? c.2

end

/-- From the first leaf to the last; a node without leaves has no place. -/
def span (t : Tree) : Span :=
  match t.first?, t.last? with
  | some a, some b => ⟨a.start, b.stop, a.line, a.column⟩
  | _, _ => Span.zero

def kind? : Tree → Option Kind
  | leaf _ _ => none
  | node k _ => some k

/-- Is the tree an inner node of kind `k`? -/
def isKind (k : Kind) (t : Tree) : Bool := t.kind? == some k

def children : Tree → List (Option Field × Tree)
  | leaf _ _ => []
  | node _ cs => cs

/-- Is the tree a syntactic unit of its own? -/
def isNamed : Tree → Bool
  | leaf as _ => as.isNamed
  | node _ _ => true

/-- The children that are syntactic units, with their fields. -/
def namedChildren (t : Tree) : List (Option Field × Tree) := t.children.filter (·.2.isNamed)

/-- The first child that fills the field. -/
def child? (f : Field) (t : Tree) : Option Tree :=
  (t.children.find? fun c => c.1 == some f).map (·.2)

/-- The text of a leaf. -/
def text : Tree → String
  | leaf _ l => l.text
  | node _ _ => ""

end Tree

end SwitchLint.Go
