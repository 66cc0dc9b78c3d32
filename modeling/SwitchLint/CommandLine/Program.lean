import SwitchLint.CommandLine.Arguments
import SwitchLint.CommandLine.Failure
import SwitchLint.Config.Source
import SwitchLint.Go.Reading
import SwitchLint.Rule.Registry

/-!
A run of the program: from its arguments, and the files and directories that it sees, to its exit status
and what it prints and writes.
-/

namespace SwitchLint.CommandLine

/-- What a run depends on besides its arguments. -/
structure Surroundings where
  workspace : Workspace
  /-- The directory of the global settings. -/
  globalDirectory : Option String
  deriving Inhabited

/-- What comes of a run. -/
structure Outcome where
  status : Nat
  stdout : String := ""
  stderr : String := ""
  /-- The workspace after the run. -/
  workspace : Workspace
  /-- The files in the working directory that the run has written. -/
  written : List String := []

/-- The status of a run that found something, or that failed. -/
def failed : Nat := 1

/-- The status of a run whose arguments are no command. -/
def misused : Nat := 2

/-! ### Checking -/

/-- The rules that run: those that the settings enable, and of these the ones named if any are. -/
def rulesFor (config : Config) (names : Option (List String)) : List Rule :=
  match names with
  | none => Rule.configured config
  | some names =>
    (Rule.configured config).filter fun r => names.contains r.name || names.contains r.code

/-- The analyzer for a check. -/
def planFor (path : String) (config : Config) (names : Option (List String))
    (excludes : List String) : Analyzer.Plan where
  root := some path
  rules := rulesFor config names
  language := some Go.language
  excludes := excludes
  config := some config

/-- Checks a path under settings. -/
def checkWith (w : Workspace) (config : Config) (path : String) (names : Option (List String))
    (excludes : List String) : Except Failure Report :=
  match (planFor path config names excludes).build w.directory with
  | .error e => .error (.build e)
  | .ok analyzer =>
    match analyzer.analyze w.files with
    | .error e => .error (.analysis e)
    | .ok report => .ok report

/-- Checks a path under the settings that are found for it. They are handed on with the report. -/
def check (s : Surroundings) (given : Option String) (path : String)
    (names : Option (List String)) (excludes : List String) : Except Failure (Config × Report) :=
  let source := ConfigSource.resolve s.workspace path given s.globalDirectory
  match Config.ofSource s.workspace source with
  | .error e => .error (.config (source.path?.getD "") e)
  | .ok config => (checkWith s.workspace config path names excludes).map (config, ·)

/-! ### Rules and settings -/

/-- The text with blanks up to the width. -/
def padded (width : Nat) (text : String) : String :=
  text ++ String.ofList (List.replicate (width - text.length) ' ')

/-- A line of the list of rules. -/
def ruleLine (code name severity description : String) : String :=
  s!"{padded 8 code} {padded 14 name} {padded 9 severity} {description}"

def ruleLines : List String :=
  ["Available rules:", "", ruleLine "Code" "Name" "Severity" "Description",
    String.ofList (List.replicate 80 '-')] ++
  Rule.all.map (fun r => ruleLine r.code r.name r.severity.name r.description) ++
  ["", "Rule options are set in [rules.<name>] blocks; see \x60chainlint init\x60.", "",
    "Use --rules to filter specific rules, e.g.:", "  chainlint check --rules long-chain",
    "  chainlint check --rules CL001"]

def initLines : List String :=
  [s!"Created {templateName}", "", "Next steps:", s!"  1. Edit {templateName} to configure rules",
    "  2. Run: chainlint check"]

/-- Writes the settings that a project begins with. Those that are there are written over only by
force. -/
def initialise (w : Workspace) (force : Bool) : Except Failure Workspace :=
  if (w.node? templateName).isSome && !force then .error .settingsExist
  else
    match w.write templateName template with
    | .ok w => .ok w
    | .error fault => .error (.unwritable fault)

/-! ### Runs -/

def unlines (lines : List String) : String := String.join (lines.map fun l => l ++ "\n")

def failure (w : Workspace) (f : Failure) : Outcome :=
  { status := failed, stderr := f.text, workspace := w }

/-- Does what is asked. A check fails if it finds anything at the threshold of the settings. -/
def perform (s : Surroundings) (c : Command) : Outcome :=
  let w := s.workspace
  match c.request with
  | .check path format names excludes =>
    match check s c.config path names excludes with
    | .error f => failure w f
    | .ok (config, report) =>
      { status := if report.hasAtLeast config.threshold then failed else 0
        stdout := report.render format
        workspace := w }
  | .listRules => { status := 0, stdout := unlines ruleLines, workspace := w }
  | .init force =>
    match initialise w force with
    | .error f => failure w f
    | .ok w =>
      { status := 0, stdout := unlines initLines, workspace := w, written := [templateName] }

/-- The path that a run checks, with all that lies below it. -/
def checkedPath? (c : Command) : Option String :=
  match c.request with
  | .check path _ _ _ => some path
  | _ => none

/-- The files of settings that a run may look at. -/
def settingsPaths (globalDirectory : Option String) (c : Command) : List String :=
  match c.request with
  | .check path _ _ _ =>
    ConfigSource.projectNames.map (Path.append path) ++ c.config.toList ++
      (globalDirectory.map (Path.append · ConfigSource.globalName)).toList
  | .listRules => []
  | .init _ => [templateName]

/-- May a run look at what stands in a file of that name, below a directory that it checks? -/
def mayRead (name : String) : Bool :=
  Go.language.handles name ||
    ((Ignore.fileNames true).filterMap List.getLast?).contains name

def usageLines : List String :=
  ["Linter for Go switch statements that repeat long selector chains", "",
    "Usage: chainlint [OPTIONS] <COMMAND>", "", "Commands:", "  check       Run lint checks",
    "  list-rules  List available rules", "  init        Initialize configuration file",
    "  help        Print this message or the help of the given subcommand(s)", "", "Options:",
    "  -v, --verbose          Enable verbose output",
    "  -c, --config <CONFIG>  Path to configuration file", "  -h, --help             Print help",
    "  -V, --version          Print version"]

/-- Runs the program. -/
def run (s : Surroundings) (args : List String) : Outcome :=
  match parse args with
  | .ok command => perform s command
  | .error .help => { status := 0, stdout := unlines usageLines, workspace := s.workspace }
  | .error .version => { status := 0, stdout := "chainlint 0.1.0\n", workspace := s.workspace }
  | .error .misuse => { status := misused, stderr := unlines usageLines, workspace := s.workspace }

/-- Runs the program several times, each time with the files that the run before has left. -/
def runAll (s : Surroundings) : List (List String) → List Outcome
  | [] => []
  | args :: runs =>
    let outcome := run s args
    outcome :: runAll { s with workspace := outcome.workspace } runs

end SwitchLint.CommandLine
