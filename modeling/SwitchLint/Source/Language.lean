import SwitchLint.Path.Basic
import SwitchLint.Syntax.Basic

/-!
A language whose files are checked: what its files are called and how a text of it is read.
-/

namespace SwitchLint

/-- Why a source is no file of its language, and where that shows. -/
structure ParseError where
  line : Nat
  column : Nat
  message : String
  deriving DecidableEq, Repr, Inhabited

/-- The text of a parse error. -/
def ParseError.text (e : ParseError) : String := s!"{e.message} at {e.line}:{e.column}"

structure Language where
  /-- The extensions of the language's files, without the dot. -/
  extensions : List String
  parse : String → Except ParseError SourceFile

/-- Does the path lead to a file of the language? -/
def Language.handles (l : Language) (path : String) : Bool :=
  l.extensions.any (Path.hasExtension · path)

end SwitchLint
