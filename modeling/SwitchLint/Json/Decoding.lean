import SwitchLint.Decimal.Shortest
import SwitchLint.Json.Value
import SwitchLint.Text.Quoted

/-!
Reading values of other types from JSON, and what is said where the shape is wrong. A record may be
given as an object or as an array of its fields in order.
-/

namespace SwitchLint

/-- Why a JSON value is not of the wanted shape. `expected` names what was wanted. -/
inductive ShapeError where
  | wrongType (found : JsonValue) (expected : String)
  | wrongValue (found : JsonValue) (expected : String)
  | wrongLength (length : Nat) (expected : String)
  | missingField (name : String)
  | duplicateField (name : String)
  | unknownVariant (word : String) (known : List String)
  deriving Inhabited

namespace JsonValue

/-- A value as error messages mention it. -/
def mention : JsonValue → String
  | null => "null"
  | boolean b => s!"boolean \x60{b}\x60"
  | integer i => s!"integer \x60{i}\x60"
  | float bits => s!"floating point \x60{Decimal.compactText bits}\x60"
  | string s => s!"string {Text.quoted s}"
  | array _ => "sequence"
  | object _ => "map"

end JsonValue

/-- A list of words as error messages mention it. -/
def wordList : List String → String
  | [] => ""
  | [w] => s!"\x60{w}\x60"
  | w :: ws => s!"\x60{w}\x60, " ++ wordList ws

def ShapeError.message : ShapeError → String
  | wrongType found expected => s!"invalid type: {found.mention}, expected {expected}"
  | wrongValue found expected => s!"invalid value: {found.mention}, expected {expected}"
  | wrongLength length expected => s!"invalid length {length}, expected {expected}"
  | missingField name => s!"missing field \x60{name}\x60"
  | duplicateField name => s!"duplicate field \x60{name}\x60"
  | unknownVariant word known => s!"unknown variant \x60{word}\x60, expected one of {wordList known}"

namespace JsonValue

def toText (expected : String) : JsonValue → Except ShapeError String
  | string s => .ok s
  | v => .error (.wrongType v expected)

/-- A number below 2 ^ 64 that is not negative. -/
def toSize : JsonValue → Except ShapeError Nat
  | integer (.ofNat n) => .ok n
  | integer i => .error (.wrongValue (integer i) "usize")
  | v => .error (.wrongType v "usize")

/-- A list of values of one type. -/
def toListOf {α : Type} (one : JsonValue → Except ShapeError α) :
    JsonValue → Except ShapeError (List α)
  | array vs => vs.mapM one
  | v => .error (.wrongType v "a sequence")

/-- A value that may be null. -/
def toOption {α : Type} (one : JsonValue → Except ShapeError α) :
    JsonValue → Except ShapeError (Option α)
  | null => .ok none
  | v => (one v).map some

/-- Takes in an entry of an object, after those whose keys are `taken`. No field may be given twice. -/
def takeEntry {σ : Type} (names : List String) (set : σ → String × JsonValue → Except ShapeError σ)
    (taken : List String × σ) (entry : String × JsonValue) : Except ShapeError (List String × σ) :=
  if names.contains entry.1 && taken.1.contains entry.1 then .error (.duplicateField entry.1)
  else (set taken.2 entry).map (entry.1 :: taken.1, ·)

/-- A record, whose fields `set` takes in one by one. Of an object the entries are taken in order; of an
array the elements are the fields in order, and the last `optional` ones may be absent. -/
def toRecord {σ : Type} (type : String) (names : List String) (optional : Nat)
    (set : σ → String × JsonValue → Except ShapeError σ) (start : σ) :
    JsonValue → Except ShapeError σ
  | object entries => (entries.foldlM (takeEntry names set) ([], start)).map Prod.snd
  | array vs => do
    let plural := if names.length = 1 then "element" else "elements"
    let draft ← (names.zip vs).foldlM set start
    if vs.length < names.length - optional then
      .error (.wrongLength vs.length s!"struct {type} with {names.length} {plural}")
    else if names.length < vs.length then
      .error (.wrongLength vs.length "fewer elements in array")
    else pure draft
  | v => .error (.wrongType v s!"struct {type}")

/-- The value of a field that has to be present. -/
def required {α : Type} (name : String) : Option α → Except ShapeError α
  | some a => .ok a
  | none => .error (.missingField name)

end JsonValue

end SwitchLint
