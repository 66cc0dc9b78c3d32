import SwitchLint.Report.Violation
import SwitchLint.Syntax.Basic

/-!
Rules: each looks at one file at a time.
-/

namespace SwitchLint

/-- The file that a rule looks at. -/
structure FileContext where
  content : String
  /-- The path that findings name. -/
  path : String
  deriving Repr, Inhabited

/-- The context of a file, named by its path below the root. -/
def FileContext.ofPath (path content root : String) : FileContext :=
  ⟨content, Path.relativeTo root path⟩

structure Rule where
  name : String
  code : String
  description : String
  severity : Severity
  check : FileContext → SourceFile → List Violation

/-- Must a comment that allows a finding of the rule give a reason? -/
def Rule.requiresReason (r : Rule) : Bool := r.severity == .error

end SwitchLint
