import SwitchLint.Report.Violation

/-!
The outcome of checking files: the findings and how many files were checked.
-/

namespace SwitchLint

structure Report where
  violations : List Violation
  filesChecked : Nat
  deriving DecidableEq, Repr, Inhabited

/-- How many findings there are of each severity. -/
structure Tally where
  errors : Nat
  warnings : Nat
  infos : Nat
  deriving DecidableEq, Repr

namespace Report

/-- Nothing found in no file. -/
def empty : Report := ⟨[], 0⟩

/-- Is there a finding at the threshold or above? -/
def hasAtLeast (r : Report) (threshold : Severity) : Bool :=
  r.violations.any (·.severity.atLeast threshold)

def hasErrors (r : Report) : Bool := r.hasAtLeast .error

/-- The number of findings of that very severity. -/
def count (r : Report) (s : Severity) : Nat := r.violations.countP (·.severity == s)

def tally (r : Report) : Tally := ⟨r.count .error, r.count .warning, r.count .info⟩

/-- The findings in the order of their places; those at one place keep their order. -/
def sort (r : Report) : Report :=
  { r with violations := r.violations.mergeSort fun a b => a.location.le b.location }

end Report

end SwitchLint
