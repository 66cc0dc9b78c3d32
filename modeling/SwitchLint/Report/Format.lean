import SwitchLint.Report.Json

/-!
The three forms in which a report is shown: paragraphs with a summary, JSON, or a line for each finding.
-/

namespace SwitchLint

inductive OutputFormat where
  | text
  | json
  | compact
  deriving DecidableEq, Repr, Inhabited

/-- The form of that very name. -/
def OutputFormat.ofName? : String → Option OutputFormat
  | "text" => some text
  | "json" => some json
  | "compact" => some compact
  | _ => none

namespace Report

/-- The colours of a terminal. -/
inductive Colour where
  | red
  | yellow
  | green
  deriving DecidableEq, Repr

/-- The sequence that switches a colour on. -/
def Colour.code : Colour → String
  | red => "\x1b[31m"
  | yellow => "\x1b[33m"
  | green => "\x1b[32m"

/-- The colour of the gravest finding. -/
def colour (r : Report) : Colour :=
  if r.hasAtLeast .error then .red else if r.hasAtLeast .warning then .yellow else .green

/-- How many findings there are. -/
def summary (r : Report) : String :=
  s!"Found {r.count .error} error(s), {r.count .warning} warning(s), {r.count .info} info(s) " ++
    s!"in {r.filesChecked} file(s)"

def renderText (r : Report) : String :=
  String.join (r.violations.map fun v => v.paragraph ++ "\n") ++ r.colour.code ++ r.summary ++
    "\x1b[0m\n"

def renderJson (r : Report) : String := r.toJson.text ++ "\n"

def renderCompact (r : Report) : String :=
  String.join (r.violations.map fun v => v.line ++ "\n")

/-- The report as it is shown. -/
def render (r : Report) : OutputFormat → String
  | .text => r.renderText
  | .json => r.renderJson
  | .compact => r.renderCompact

end Report

end SwitchLint
