import SwitchLint.Go.Repair
import SwitchLint.Go.Lowering

/-!
Reading Go: the lexemes of a source, a derivation of them, the tree it builds, and the syntax that
rules look at.
-/

namespace SwitchLint

namespace Go

/-- The concrete syntax tree of a source. -/
def parseTree (source : String) : Except ParseError Tree :=
  let lexemes := Lexeme.scan source
  match Grammar.proposeFile lexemes with
  | .error _ => .error (diagnose (Lexeme.outset source) lexemes)
  | .ok steps =>
    match Tree.ofSteps steps lexemes with
    | some t => .ok t
    | none => .error ⟨1, 1, "syntax error"⟩

/-- Reads a Go source. -/
def parse (source : String) : Except ParseError SourceFile :=
  (parseTree source).map Tree.toSourceFile

/-- Go as a language. -/
def language : Language := ⟨["go"], parse⟩

end Go

end SwitchLint
