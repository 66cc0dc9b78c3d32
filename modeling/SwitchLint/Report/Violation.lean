import SwitchLint.Path.Basic
import SwitchLint.Report.Severity
import SwitchLint.Source.Position

/-!
Findings: where they are, what they say, and the two texts in which one is shown.
-/

namespace SwitchLint

/-- A place in a file. -/
structure Location where
  file : String
  line : Nat
  column : Nat
  /-- Where it starts, in bytes from the beginning of the file. -/
  offset : Nat
  /-- How many bytes it covers. -/
  length : Nat
  deriving DecidableEq, Repr, Inhabited

namespace Location

/-- The place of a piece of syntax in a file. -/
def ofSpan (file : String) (span : Span) : Location :=
  ⟨file, span.line, span.column, span.start, span.len⟩

/-- A place that covers nothing, at the beginning of the file. -/
def point (file : String) (line column : Nat) : Location := ⟨file, line, column, 0, 0⟩

/-- The order of places: by file, then line, then column. -/
def compare (a b : Location) : Ordering :=
  ((Path.compare a.file b.file).then (Ord.compare a.line b.line)).then
    (Ord.compare a.column b.column)

/-- Does the first place come no later than the second? -/
def le (a b : Location) : Bool := a.compare b != .gt

/-- Where to look for it: `file:line:column`. -/
def text (l : Location) : String := s!"{l.file}:{l.line}:{l.column}"

end Location

/-- A finding of a rule. -/
structure Violation where
  code : String
  rule : String
  severity : Severity
  location : Location
  message : String
  /-- What could be done about it. -/
  suggestion : Option String
  deriving DecidableEq, Repr, Inhabited

namespace Violation

/-- The finding on a line of its own. -/
def line (v : Violation) : String :=
  s!"{v.location.text}: {v.severity.name} [{v.code}] {v.message}"

/-- The finding as a paragraph. -/
def paragraph (v : Violation) : String :=
  s!"{v.code} {v.rule} at {v.location.text}\n  {v.severity.name}: {v.message}\n" ++
    match v.suggestion with
    | some s => s!"  = help: {s}\n"
    | none => ""

end Violation

end SwitchLint
