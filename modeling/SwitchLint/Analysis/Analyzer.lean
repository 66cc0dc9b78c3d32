import SwitchLint.Config.Basic
import SwitchLint.Files.Discovery
import SwitchLint.Files.Exclusion
import SwitchLint.Report.Basic
import SwitchLint.Rule.Basic
import SwitchLint.Source.Language

/-!
Checking the files of a project: how an analyzer is put together, and what it finds.
-/

namespace SwitchLint

/-- Why a check does not come to its end. -/
inductive AnalysisError where
  | noLanguage
  | badPattern (fault : Glob.Fault)
  | undiscovered (fault : DiscoveryFault)
  | unreadable (fault : FileFault)
  | unparsable (path : String) (error : ParseError)
  deriving DecidableEq, Repr

namespace AnalysisError

/-- The message of what lies behind the error, if that speaks for itself. -/
def cause? : AnalysisError → Option String
  | badPattern fault => some fault.message
  | undiscovered fault => some fault.message
  | unreadable fault => some fault.message
  | _ => none

def message : AnalysisError → String
  | noLanguage => "No language frontend configured"
  | badPattern fault => s!"Invalid glob pattern: {fault.message}"
  | undiscovered fault => s!"Walk error: {fault.message}"
  | unreadable fault => s!"IO error: {fault.message}"
  | unparsable path error => s!"Parse error in {path}: {error.text}"

end AnalysisError

/-- All that a check of a project needs. -/
structure Analyzer where
  /-- The absolute path of the directory or file that is checked. -/
  root : String
  rules : List Rule
  language : Language
  exclusions : List Exclusion
  config : Config
  /-- Does a file that cannot be parsed end the check? -/
  failOnParseError : Bool

namespace Analyzer

/-! ### Putting an analyzer together -/

/-- What has been said about an analyzer so far. -/
structure Plan where
  root : Option String := none
  rules : List Rule := []
  language : Option Language := none
  excludes : List String := []
  config : Option Config := none
  failOnParseError : Bool := false

/-- Something said about an analyzer. -/
inductive Plan.Step where
  | root (path : String)
  | rule (rule : Rule)
  | language (language : Language)
  | exclude (pattern : String)
  | excludes (patterns : List String)
  | config (config : Config)
  | failOnParseError (fail : Bool)

/-- The last word counts; rules and patterns add up. -/
def Plan.add (p : Plan) : Step → Plan
  | .root path => { p with root := some path }
  | .rule rule => { p with rules := p.rules ++ [rule] }
  | .language language => { p with language := some language }
  | .exclude pattern => { p with excludes := p.excludes ++ [pattern] }
  | .excludes patterns => { p with excludes := p.excludes ++ patterns }
  | .config config => { p with config := some config }
  | .failOnParseError fail => { p with failOnParseError := fail }

def Plan.ofSteps (steps : List Plan.Step) : Plan := steps.foldl Plan.add {}

/-- Reads patterns; the first bad one is an error. -/
def parseExclusions (patterns : List String) : Except AnalysisError (List Exclusion) :=
  patterns.mapM fun text =>
    match Exclusion.parse text with
    | .ok e => .ok e
    | .error fault => .error (.badPattern fault)

/-- The root that is checked: the one given, else that of the settings, seen from the working
directory. -/
def Plan.rootFrom (p : Plan) (directory : String) : String :=
  Path.append directory ((p.root.or (p.config.map (·.scope.root))).getD ".")

/-- Builds the analyzer. The patterns of the settings come after those given. -/
def Plan.build (p : Plan) (directory : String) : Except AnalysisError Analyzer := do
  let some language := p.language | throw .noLanguage
  let config := p.config.getD {}
  let exclusions ← parseExclusions (p.excludes ++ config.scope.exclude)
  return {
    root := p.rootFrom directory
    rules := p.rules
    language, exclusions, config
    failOnParseError := p.failOnParseError }

/-! ### One file -/

/-- The finding with the severity that the settings give to its rule. Findings that the rule reports at
another severity than its own keep it. -/
def overrideSeverity (own : Severity) (new : Option Severity) (v : Violation) : Violation :=
  match new with
  | some s => if v.severity = own then { v with severity := s } else v
  | none => v

/-- What a rule finds in a file; nothing if the settings switch the rule off. -/
def runRule (a : Analyzer) (file : FileContext) (source : SourceFile) (rule : Rule) :
    List Violation :=
  if a.config.isEnabled rule.name then
    (rule.check file source).map
      (overrideSeverity rule.severity (a.config.severity? rule.name))
  else []

/-- Checks a text as the file at `path`. -/
def checkSource (a : Analyzer) (path content : String) : Except AnalysisError (List Violation) :=
  match a.language.parse content with
  | .error e => .error (.unparsable path e)
  | .ok source => .ok (a.rules.flatMap (a.runRule (.ofPath path content a.root) source))

/-! ### All files -/

/-- Is the file checked? -/
def selects (a : Analyzer) (path : String) : Bool :=
  a.language.handles path && !excluded a.exclusions a.root path

/-- The files that are checked, in the order of their paths. -/
def select (a : Analyzer) (files : List (String × Content)) : List (String × Content) :=
  (files.filter fun (path, _) => a.selects path).mergeSort fun x y =>
    Path.compare x.1 y.1 != .gt

/-- Checks files one after the other. A file that cannot be parsed is passed over, unless it ends the
check. -/
def checkFiles (a : Analyzer) : List (String × Content) → Except AnalysisError Report
  | [] => .ok .empty
  | (path, content) :: files =>
    match content.toText with
    | .error fault => .error (.unreadable fault)
    | .ok text =>
      match a.checkSource path text with
      | .ok found =>
        (a.checkFiles files).map fun r => ⟨found ++ r.violations, r.filesChecked + 1⟩
      | .error e => if a.failOnParseError then .error e else a.checkFiles files

/-- Checks all files below the root. -/
def analyze (a : Analyzer) (files : FileTree) : Except AnalysisError Report :=
  match files.discover a.config.scope.respectGitignore a.root with
  | .error fault => .error (.undiscovered fault)
  | .ok found => (a.checkFiles (a.select found)).map Report.sort

end Analyzer

end SwitchLint
