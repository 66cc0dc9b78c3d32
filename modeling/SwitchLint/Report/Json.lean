import SwitchLint.Json.Decoding
import SwitchLint.Json.Printing
import SwitchLint.Json.Reading
import SwitchLint.Report.Basic

/-!
Reports as JSON, and back.
-/

namespace SwitchLint

namespace Severity

def toJson (s : Severity) : JsonValue := .string s.name

/-- The severity of that very name. -/
def named (word : String) : Except ShapeError Severity :=
  match ofName? word with
  | some s => .ok s
  | none => .error (.unknownVariant word ["info", "warning", "error"])

/-- A name, or an object that has the name as its only key, with nothing under it. -/
def ofJson : JsonValue → Except ShapeError Severity
  | .string word => named word
  | .object [(word, v)] => do
    let s ← named word
    match v with
    | .null => pure s
    | v => .error (.wrongType v "unit")
  | .object es => .error (.wrongValue (.object es) "map with a single key")
  | v => .error (.wrongType v "string or map")

end Severity

namespace Location

def toJson (l : Location) : JsonValue :=
  .object [("file", .string l.file), ("line", .integer l.line), ("column", .integer l.column),
    ("offset", .integer l.offset), ("length", .integer l.length)]

/-- The fields of a location that have been read. -/
structure Draft where
  file : Option String := none
  line : Option Nat := none
  column : Option Nat := none
  offset : Option Nat := none
  length : Option Nat := none

def Draft.set (d : Draft) : String × JsonValue → Except ShapeError Draft
  | ("file", v) => return { d with file := some (← v.toText "path string") }
  | ("line", v) => return { d with line := some (← v.toSize) }
  | ("column", v) => return { d with column := some (← v.toSize) }
  | ("offset", v) => return { d with offset := some (← v.toSize) }
  | ("length", v) => return { d with length := some (← v.toSize) }
  | _ => pure d

def ofJson (v : JsonValue) : Except ShapeError Location := do
  let d ← v.toRecord "Location" ["file", "line", "column", "offset", "length"] 0 Draft.set {}
  return {
    file := ← JsonValue.required "file" d.file
    line := ← JsonValue.required "line" d.line
    column := ← JsonValue.required "column" d.column
    offset := ← JsonValue.required "offset" d.offset
    length := ← JsonValue.required "length" d.length }

end Location

namespace Violation

def suggestionToJson (message : String) : JsonValue := .object [("message", .string message)]

def suggestionOfJson (v : JsonValue) : Except ShapeError String := do
  let set (d : Option String) : String × JsonValue → Except ShapeError (Option String)
    | ("message", v) => return some (← v.toText "a string")
    | _ => pure d
  JsonValue.required "message" (← v.toRecord "Suggestion" ["message"] 0 set none)

/-- A finding without a suggestion has no entry for one. -/
def toJson (v : Violation) : JsonValue :=
  .object <|
    [("code", .string v.code), ("rule", .string v.rule), ("severity", v.severity.toJson),
      ("location", v.location.toJson), ("message", .string v.message)] ++
    (v.suggestion.map fun s => ("suggestion", suggestionToJson s)).toList

/-- The fields of a finding that have been read. -/
structure Draft where
  code : Option String := none
  rule : Option String := none
  severity : Option Severity := none
  location : Option Location := none
  message : Option String := none
  suggestion : Option String := none

def Draft.set (d : Draft) : String × JsonValue → Except ShapeError Draft
  | ("code", v) => return { d with code := some (← v.toText "a string") }
  | ("rule", v) => return { d with rule := some (← v.toText "a string") }
  | ("severity", v) => return { d with severity := some (← Severity.ofJson v) }
  | ("location", v) => return { d with location := some (← Location.ofJson v) }
  | ("message", v) => return { d with message := some (← v.toText "a string") }
  | ("suggestion", v) => return { d with suggestion := ← v.toOption suggestionOfJson }
  | _ => pure d

def ofJson (v : JsonValue) : Except ShapeError Violation := do
  let names := ["code", "rule", "severity", "location", "message", "suggestion"]
  let d ← v.toRecord "Violation" names 1 Draft.set {}
  return {
    code := ← JsonValue.required "code" d.code
    rule := ← JsonValue.required "rule" d.rule
    severity := ← JsonValue.required "severity" d.severity
    location := ← JsonValue.required "location" d.location
    message := ← JsonValue.required "message" d.message
    suggestion := d.suggestion }

end Violation

namespace Report

def toJson (r : Report) : JsonValue :=
  .object [("violations", .array (r.violations.map Violation.toJson)),
    ("files_checked", .integer r.filesChecked)]

/-- The fields of a report that have been read. -/
structure Draft where
  violations : Option (List Violation) := none
  filesChecked : Option Nat := none

def Draft.set (d : Draft) : String × JsonValue → Except ShapeError Draft
  | ("violations", v) => return { d with violations := some (← v.toListOf Violation.ofJson) }
  | ("files_checked", v) => return { d with filesChecked := some (← v.toSize) }
  | _ => pure d

def ofJson (v : JsonValue) : Except ShapeError Report := do
  let d ← v.toRecord "LintResult" ["violations", "files_checked"] 0 Draft.set {}
  return {
    violations := ← JsonValue.required "violations" d.violations
    filesChecked := ← JsonValue.required "files_checked" d.filesChecked }

/-- Why a text is no report: it is no JSON, or not of that shape. -/
inductive ReadError where
  | malformed
  | misshapen (fault : ShapeError)
  deriving Inhabited

/-- The report that a text in JSON tells. -/
def ofText (text : String) : Except ReadError Report :=
  match JsonValue.ofText text with
  | none => .error .malformed
  | some v => (ofJson v).mapError .misshapen

end Report

end SwitchLint
