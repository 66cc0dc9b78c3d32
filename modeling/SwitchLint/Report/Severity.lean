/-!
How grave a finding is.
-/

namespace SwitchLint

inductive Severity where
  /-- Fails nothing. -/
  | info
  | warning
  | error
  deriving DecidableEq, Repr, Inhabited

namespace Severity

def name : Severity → String
  | info => "info"
  | warning => "warning"
  | error => "error"

def rank : Severity → Nat
  | info => 0
  | warning => 1
  | error => 2

/-- Is the severity that of the threshold or above it? -/
def atLeast (s threshold : Severity) : Bool := threshold.rank ≤ s.rank

/-- The severity with exactly that name. -/
def ofName? : String → Option Severity
  | "info" => some info
  | "warning" => some warning
  | "error" => some error
  | _ => none

/-- Reads a severity in any case; `warn` is short for `warning`. Anything else is handed back in lower
case. -/
def parse (text : String) : Except String Severity :=
  match String.ofList (text.toList.map Char.toLower) with
  | "info" => .ok info
  | "warning" => .ok warning
  | "warn" => .ok warning
  | "error" => .ok error
  | other => .error other

/-- What is said of a word that names no severity. -/
def unknownMessage (word : String) : String := s!"unknown severity \x60{word}\x60"

end Severity

end SwitchLint
