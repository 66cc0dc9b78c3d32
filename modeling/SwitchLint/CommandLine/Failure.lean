import SwitchLint.Analysis.Analyzer
import SwitchLint.Config.Reading
import SwitchLint.CommandLine.Template

/-!
Why a run of the program fails, and how that is told: what failed, and under it the causes. Several causes
are numbered, and the lines of a cause stand under one another.
-/

namespace SwitchLint.CommandLine

inductive Failure where
  | config (path : String) (error : ConfigError)
  | build (error : AnalysisError)
  | analysis (error : AnalysisError)
  /-- There are settings already. -/
  | settingsExist
  | unwritable (fault : FileFault)

namespace Failure

/-- What failed. -/
def summary : Failure → String
  | config path _ => s!"Failed to load config: {path}"
  | build _ => "Failed to build analyzer"
  | analysis _ => "Analysis failed"
  | settingsExist =>
    s!"Configuration file already exists at {templateName}. Use --force to overwrite."
  | unwritable _ => s!"Failed to write {templateName}"

/-- Why, one cause behind the other. -/
def causes : Failure → List String
  | config _ (.unreadable path fault) => [(ConfigError.unreadable path fault).message, fault.message]
  | config _ error => [error.message]
  | build error => error.message :: error.cause?.toList
  | analysis error => error.message :: error.cause?.toList
  | settingsExist => []
  | unwritable fault => [fault.message]

/-- A cause after its mark; all further lines are indented. -/
def indented (mark indent cause : String) : String :=
  let lines := (Text.split '\n' cause.toList).map String.ofList
  mark ++ ("\n" ++ indent).intercalate lines

def causeText : List String → String
  | [] => ""
  | [cause] => "\n\nCaused by:\n" ++ indented "    " "    " cause
  | causes =>
    "\n\nCaused by:" ++ String.join (causes.zipIdx.map fun (cause, n) =>
      "\n" ++ indented s!"    {n}: " "       " cause)

def text (f : Failure) : String := s!"Error: {f.summary}{causeText f.causes}\n"

end Failure

end SwitchLint.CommandLine
