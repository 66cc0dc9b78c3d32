import SwitchLint.Report.Format
import SwitchLint.Text.Lines

/-!
The arguments of the program:

    [-v] [-c FILE] check [-f FORMAT] [--rules NAMES] [-e PATTERN]... [PATH]
    [-v] [-c FILE] list-rules
    [-v] [-c FILE] init [--force]

The flags before the command may also stand after it. A flag's value is the next argument or is attached
to the flag; flags of one letter may be written together; after `--` no argument is a flag. A flag may be
given once, except for `-e`.
-/

namespace SwitchLint.CommandLine

inductive Flag where
  | verbose
  | config
  | format
  | rules
  | exclude
  | force
  | help
  | version
  deriving DecidableEq, Repr

namespace Flag

def long : Flag → String
  | verbose => "verbose"
  | config => "config"
  | format => "format"
  | rules => "rules"
  | exclude => "exclude"
  | force => "force"
  | help => "help"
  | version => "version"

def short? : Flag → Option Char
  | verbose => some 'v'
  | config => some 'c'
  | format => some 'f'
  | exclude => some 'e'
  | help => some 'h'
  | version => some 'V'
  | rules => none
  | force => none

def takesValue : Flag → Bool
  | config => true
  | format => true
  | rules => true
  | exclude => true
  | _ => false

end Flag

inductive Verb where
  | check
  | listRules
  | init
  deriving DecidableEq, Repr

namespace Verb

def ofName? : String → Option Verb
  | "check" => some check
  | "list-rules" => some listRules
  | "init" => some init
  | _ => none

/-- The flags that may stand after the command. -/
def flags : Verb → List Flag
  | check => [.format, .rules, .exclude, .verbose, .config, .help]
  | listRules => [.verbose, .config, .help]
  | init => [.force, .verbose, .config, .help]

end Verb

/-- The flags that may stand before the command. -/
def leadingFlags : List Flag := [.verbose, .config, .help, .version]

/-! ### Cutting arguments into pieces -/

inductive Piece where
  | flag (flag : Flag) (value : String)
  /-- An argument that is no flag, and the arguments after it. -/
  | word (text : String) (rest : List String)
  /-- An argument after `--`. -/
  | operand (text : String)
  /-- A flag that is not known, or that has a value too many or none. -/
  | misuse
  deriving Repr

/-- The flags that a group of letters stands for, and the flag that waits for its value. -/
def cutLetters (flags : List Flag) : List Char → List Piece × Option Flag
  | [] => ([], none)
  | c :: cs =>
    match flags.find? fun f => f.short? = some c with
    | none => ([.misuse], none)
    | some f =>
      if f.takesValue then
        match cs with
        | [] => ([], some f)
        | '=' :: value => ([.flag f (String.ofList value)], none)
        | value => ([.flag f (String.ofList value)], none)
      else
        let (pieces, waiting) := cutLetters flags cs
        (.flag f "" :: pieces, waiting)

/-- The flag that is written out, with its value if that is attached. -/
def cutWord (flags : List Flag) (cs : List Char) : List Piece × Option Flag :=
  let (name, value) :=
    match Text.cut? ['='] cs with
    | some (name, value) => (name, some value)
    | none => (cs, none)
  match flags.find? (fun f => f.long.toList = name), value with
  | none, _ => ([.misuse], none)
  | some f, some value =>
    if f.takesValue then ([.flag f (String.ofList value)], none) else ([.misuse], none)
  | some f, none => if f.takesValue then ([], some f) else ([.flag f ""], none)

/-- Does the argument look like a flag? -/
def looksLikeFlag (arg : String) : Bool :=
  match arg.toList with
  | '-' :: _ :: _ => true
  | _ => false

/-- The pieces of arguments; `waiting` is a flag that waits for its value. -/
def cut (flags : List Flag) (waiting : Option Flag) : List String → List Piece
  | [] => if waiting.isSome then [.misuse] else []
  | arg :: args =>
    match waiting with
    | some f => if looksLikeFlag arg then [.misuse] else .flag f arg :: cut flags none args
    | none =>
      match arg.toList with
      | ['-', '-'] => args.map .operand
      | '-' :: '-' :: cs =>
        let (pieces, waiting) := cutWord flags cs
        pieces ++ cut flags waiting args
      | '-' :: c :: cs =>
        let (pieces, waiting) := cutLetters flags (c :: cs)
        pieces ++ cut flags waiting args
      | _ => .word arg args :: cut flags none args

/-! ### Commands -/

/-- What is asked of the program. -/
inductive Request where
  | check (path : String) (format : OutputFormat) (rules : Option (List String))
    (excludes : List String)
  | listRules
  | init (force : Bool)
  deriving DecidableEq, Repr

structure Command where
  request : Request
  /-- The file of settings that is given. -/
  config : Option String
  deriving DecidableEq, Repr

/-- Why arguments are no command. -/
inductive Refusal where
  | misuse
  | help
  | version
  deriving DecidableEq, Repr

/-- What the flags and arguments read so far say. -/
structure Draft where
  seen : List Flag := []
  config : Option String := none
  format : OutputFormat := .text
  rules : Option String := none
  excludes : List String := []
  force : Bool := false
  path : Option String := none

namespace Draft

def setFlag (d : Draft) (flag : Flag) (value : String) : Except Refusal Draft :=
  if d.seen.contains flag then .error .misuse
  else
    let seen := flag :: d.seen
    match flag with
    | .help => .error .help
    | .version => .error .version
    | .verbose => .ok { d with seen }
    | .force => .ok { d with seen, force := true }
    | .config => if value = "" then .error .misuse else .ok { d with seen, config := some value }
    | .rules => .ok { d with seen, rules := some value }
    | .exclude => .ok { d with excludes := d.excludes ++ [value] }
    | .format =>
      match OutputFormat.ofName? value with
      | some format => .ok { d with seen, format }
      | none => .error .misuse

def setPath (d : Draft) (verb : Verb) (path : String) : Except Refusal Draft :=
  if verb = .check ∧ d.path = none ∧ path ≠ "" then .ok { d with path := some path }
  else .error .misuse

def setPiece (d : Draft) (verb : Verb) : Piece → Except Refusal Draft
  | .flag f value => d.setFlag f value
  | .word text _ => d.setPath verb text
  | .operand text => d.setPath verb text
  | .misuse => .error .misuse

/-- The names between commas. -/
def names (text : String) : List String :=
  (Text.split ',' text.toList).map fun cs => String.ofList (Text.trim cs)

def toCommand (d : Draft) (verb : Verb) : Command where
  config := d.config
  request :=
    match verb with
    | .check => .check (d.path.getD ".") d.format (d.rules.map names) d.excludes
    | .listRules => .listRules
    | .init => .init d.force

end Draft

/-- Reads what follows the command. -/
def parseRest (verb : Verb) (config : Option String) (args : List String) :
    Except Refusal Command := do
  let start : Draft := { config }
  let draft ← (cut verb.flags none args).foldlM (fun d p => d.setPiece verb p) start
  pure (draft.toCommand verb)

/-- Reads pieces up to the command, and then what follows it. -/
def parsePieces (d : Draft) : List Piece → Except Refusal Command
  | .flag f value :: pieces => do parsePieces (← d.setFlag f value) pieces
  | .word name rest :: _ =>
    match Verb.ofName? name, name, rest with
    | some verb, _, _ => parseRest verb d.config rest
    | none, "help", [] => .error .help
    | none, "help", [topic] => .error (if (Verb.ofName? topic).isSome then .help else .misuse)
    | none, _, _ => .error .misuse
  | _ => .error .misuse

/-- Reads the arguments of the program. -/
def parse (args : List String) : Except Refusal Command := parsePieces {} (cut leadingFlags none args)

end SwitchLint.CommandLine
