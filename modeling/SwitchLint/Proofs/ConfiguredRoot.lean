import SwitchLint.CommandLine.Program
import SwitchLint.Proofs.Assembly

/-!
Which directory a run checks: the operand of its command line, and the working directory where there is
none. The root that settings name only counts for an analyzer that is given no other, and a run of the
program always gives one; so that setting changes nothing.
-/

namespace SwitchLint

/-- The settings with another root. -/
def Config.withRoot (config : Config) (root : String) : Config :=
  { config with scope := { config.scope with root } }

namespace Analyzer

def withRoot (a : Analyzer) (root : String) : Analyzer := { a with config := a.config.withRoot root }

variable (a : Analyzer) (root : String)

/-- An analyzer checks the root that it holds; what its settings say of it is not read again. -/
theorem analyze_withRoot (files : FileTree) :
    (a.withRoot root).analyze files = a.analyze files :=
  analyze_congr rfl rfl rfl (fun _ _ => rfl) fun _ _ => rfl

end Analyzer

namespace CommandLine

/-! ### The operand of a command line -/

theorem bind_eq_ok_iff {ε α β : Type} {x : Except ε α} {f : α → Except ε β} {b : β} :
    x >>= f = .ok b ↔ ∃ a, x = .ok a ∧ f a = .ok b := by
  cases x <;> simp [bind, Except.bind]

/-- What is no flag and no flag's value. -/
def Piece.operand? : Piece → Option String
  | .word text _ => some text
  | .operand text => some text
  | _ => none

def behindCommand : List Piece → List String
  | .flag _ _ :: pieces => behindCommand pieces
  | .word _ rest :: _ => rest
  | _ => []

/-- The operands of a command line that asks for a check. -/
def operands (args : List String) : List String :=
  (cut Verb.check.flags none (behindCommand (cut leadingFlags none args))).filterMap Piece.operand?

theorem setFlag_path {d d' : Draft} {f : Flag} {value : String} (set : d.setFlag f value = .ok d') :
    d'.path = d.path := by
  unfold Draft.setFlag at set
  split at set
  · cases set
  · cases f <;> simp only at set <;> try split at set
    all_goals cases set
    all_goals rfl

/-- A draft takes up at most one operand, and forgets none. -/
theorem setPiece_path {d d' : Draft} {verb : Verb} {p : Piece} (set : d.setPiece verb p = .ok d') :
    d'.path.toList = d.path.toList ++ p.operand?.toList := by
  have taken {text : String} (set : d.setPath verb text = .ok d') :
      d'.path.toList = d.path.toList ++ [text] := by
    unfold Draft.setPath at set
    split at set
    · rename_i fresh
      cases set
      simp [fresh.2.1]
    · cases set
  cases p with
  | flag f value => simp [Piece.operand?, setFlag_path set]
  | word text rest => exact taken set
  | operand text => exact taken set
  | misuse => cases set

theorem setPieces_path {d d' : Draft} {verb : Verb} {pieces : List Piece}
    (set : pieces.foldlM (fun d p => d.setPiece verb p) d = .ok d') :
    d'.path.toList = d.path.toList ++ pieces.filterMap Piece.operand? := by
  -- The operands taken up so far, followed by those to come, stay the same list.
  induction pieces generalizing d with
  | nil =>
    cases set
    simp
  | cons p pieces ih =>
    rw [List.foldlM_cons, bind_eq_ok_iff] at set
    obtain ⟨d₁, first, rest⟩ := set
    rw [ih rest, setPiece_path first, List.append_assoc]
    cases piece : p.operand? <;> simp [piece]

theorem parseRest_of_parsePieces {d : Draft} {pieces : List Piece} {c : Command}
    (parsed : parsePieces d pieces = .ok c) :
    ∃ verb config, parseRest verb config (behindCommand pieces) = .ok c := by
  induction pieces generalizing d with
  | nil => cases parsed
  | cons p pieces ih =>
    cases p with
    | flag f value =>
      rw [parsePieces, bind_eq_ok_iff] at parsed
      obtain ⟨d₁, _, rest⟩ := parsed
      exact ih rest
    | word name rest =>
      unfold parsePieces at parsed
      split at parsed
      · exact ⟨_, d.config, parsed⟩
      all_goals cases parsed
    | operand text => cases parsed
    | misuse => cases parsed

/-- A check looks at the operand of the command line, and at the working directory if there is none.
There are never several. -/
theorem parse_check {args : List String} {path : String} {format : OutputFormat}
    {names : Option (List String)} {excludes : List String} {given : Option String}
    (parsed : parse args = .ok ⟨.check path format names excludes, given⟩) :
    (operands args = [] ∧ path = ".") ∨ operands args = [path] := by
  obtain ⟨verb, config, parsed⟩ := parseRest_of_parsePieces parsed
  rw [parseRest, bind_eq_ok_iff] at parsed
  obtain ⟨d, set, command⟩ := parsed
  have request := congrArg Command.request (Except.ok.inj command)
  cases verb with
  | check =>
    have operand := setPieces_path set
    have chosen : d.path.getD "." = path := (Request.check.inj request).1
    rw [operands, ← chosen]
    cases taken : d.path with
    | none => exact .inl ⟨by simpa [taken] using operand, rfl⟩
    | some text => exact .inr (by simpa [taken] using operand.symm)
  | listRules => cases request
  | init => cases request

/-! ### A check under the settings that are found for it -/

/-- What a run comes to that checks `path` under settings. -/
def checkedUnder (w : Workspace) (config : Config) (path : String) (format : OutputFormat)
    (names : Option (List String)) (excludes : List String) : Outcome :=
  match checkWith w config path names excludes with
  | .error f => failure w f
  | .ok report =>
    { status := if report.hasAtLeast config.threshold then failed else 0
      stdout := report.render format
      workspace := w }

section

variable {s : Surroundings} {config : Config} {path settings : String} {format : OutputFormat}
  {names : Option (List String)} {excludes : List String} {given : Option String}

/-- A run checks under the settings that are found, or tells what is wrong with them. -/
theorem run_of_source {args : List String}
    (asked : parse args = .ok ⟨.check path format names excludes, given⟩) :
    run s args =
      match Config.ofSource s.workspace
          (ConfigSource.resolve s.workspace path given s.globalDirectory) with
      | .error e => failure s.workspace (.config
          ((ConfigSource.resolve s.workspace path given s.globalDirectory).path?.getD "") e)
      | .ok config => checkedUnder s.workspace config path format names excludes := by
  simp only [run, asked, perform, check]
  cases Config.ofSource s.workspace
      (ConfigSource.resolve s.workspace path given s.globalDirectory) with
  | error e => rfl
  | ok config =>
    cases checked : checkWith s.workspace config path names excludes <;>
      simp [checkedUnder, checked, Except.map]

theorem run_check {args : List String}
    (asked : parse args = .ok ⟨.check path format names excludes, given⟩)
    (found : (ConfigSource.resolve s.workspace path given s.globalDirectory).path? = some settings)
    (loaded : Config.load s.workspace settings = .ok config) :
    run s args = checkedUnder s.workspace config path format names excludes := by
  rw [run_of_source asked, Config.ofSource, found]
  simp only [loaded]

theorem build_planFor (directory : String) :
    (planFor path config names excludes).build directory =
      (Analyzer.parseExclusions (excludes ++ config.scope.exclude)).map fun exclusions =>
        { root := Path.append directory path
          rules := rulesFor config names
          language := Go.language
          exclusions, config
          failOnParseError := false } := by
  simp only [Analyzer.Plan.build, planFor, Option.getD_some]
  cases Analyzer.parseExclusions (excludes ++ config.scope.exclude) <;> rfl

theorem build_withRoot (root directory : String) :
    (planFor path (config.withRoot root) names excludes).build directory =
      ((planFor path config names excludes).build directory).map (·.withRoot root) := by
  have patterns : (config.withRoot root).scope.exclude = config.scope.exclude := rfl
  rw [build_planFor, build_planFor, patterns]
  cases Analyzer.parseExclusions (excludes ++ config.scope.exclude) <;> rfl

theorem checkWith_withRoot (w : Workspace) (root : String) :
    checkWith w (config.withRoot root) path names excludes = checkWith w config path names excludes := by
  rw [checkWith, checkWith, build_withRoot]
  cases (planFor path config names excludes).build w.directory with
  | error e => rfl
  | ok a => simp only [Except.map, Analyzer.analyze_withRoot]

theorem checkWith_absolute {w : Workspace} {path' : String} (same : w.absolute path = w.absolute path') :
    checkWith w config path names excludes = checkWith w config path' names excludes := by
  rw [checkWith, checkWith, build_planFor, build_planFor]
  rw [Workspace.absolute, Workspace.absolute] at same
  rw [same]

theorem checkedUnder_withRoot (w : Workspace) (root : String) :
    checkedUnder w (config.withRoot root) path format names excludes =
      checkedUnder w config path format names excludes := by
  rw [checkedUnder, checkedUnder, checkWith_withRoot]
  rfl

/-- A run without an operand checks the working directory under the settings that are found there,
whatever root these name. The run that is given those settings and their root as its operand checks that
root; so the two come to the same where the root is the working directory. -/
theorem run_without_operand (s : Surroundings) (args : List String) (config : Config)
    (path settings : String) (format : OutputFormat) (names : Option (List String))
    (excludes : List String) (given : Option String)
    (asked : parse args = .ok ⟨.check path format names excludes, given⟩) (bare : operands args = [])
    (found : (ConfigSource.resolve s.workspace "." given s.globalDirectory).path? = some settings)
    (loaded : Config.load s.workspace settings = .ok config) :
    (∀ root, run s args =
      checkedUnder s.workspace (config.withRoot root) "." format names excludes) ∧
    ∀ args', parse args' = .ok ⟨.check config.scope.root format names excludes, some settings⟩ →
      run s args' = checkedUnder s.workspace config config.scope.root format names excludes ∧
      (s.workspace.absolute config.scope.root = s.workspace.absolute "." →
        run s args = run s args') := by
  have here : path = "." := by
    rcases parse_check asked with ⟨_, here⟩ | operand
    · exact here
    · rw [bare] at operand
      cases operand
  subst here
  have own := run_check asked found loaded
  refine ⟨fun root => own.trans (checkedUnder_withRoot s.workspace root).symm, fun args' asked' => ?_⟩
  have other := run_check asked' rfl loaded
  refine ⟨other, fun same => ?_⟩
  rw [own, other, checkedUnder, checkedUnder, checkWith_absolute same]

end

/-- A project whose settings name a directory that holds one of its two files. -/
def rooted : Surroundings where
  workspace :=
    { directory := "/w"
      files := .directory [("w", .directory
        [("a.go", .file (.text "")),
          ("chainlint.toml", .file (.text "[analyzer]\nroot = \"pkg\"\n")),
          ("pkg", .directory [("b.go", .file (.text ""))])])] }
  globalDirectory := none

def rootedConfig : Config := { scope := ⟨"pkg", [], true⟩ }

theorem load_rooted : Config.load rooted.workspace "./chainlint.toml" = .ok rootedConfig := by
  have read : (Config.load rooted.workspace "./chainlint.toml").toOption.map
      (fun c => (c.scope, c.rules.isEmpty, c.failOn)) = some (⟨"pkg", [], true⟩, true, none) := by
    decide +kernel
  cases loaded : Config.load rooted.workspace "./chainlint.toml" with
  | error e => simp [loaded, Except.toOption] at read
  | ok config =>
    obtain ⟨scope, rules, failOn⟩ := config
    simp [loaded, Except.toOption] at read
    obtain ⟨rfl, rfl, rfl⟩ := read
    rfl

theorem check_asked : parse ["check"] = .ok ⟨.check "." .text none [], none⟩ := by decide

theorem rooted_asked_below : parse ["--config=./chainlint.toml", "check", "pkg"] =
    .ok ⟨.check "pkg" .text none [], some "./chainlint.toml"⟩ := by decide +kernel

theorem rooted_found :
    (ConfigSource.resolve rooted.workspace "." none rooted.globalDirectory).path? =
      some "./chainlint.toml" := by decide +kernel

theorem rooted_found_below : (ConfigSource.resolve rooted.workspace "pkg" (some "./chainlint.toml")
    rooted.globalDirectory).path? = some "./chainlint.toml" := rfl

theorem run_without_operand_rooted :
    operands ["check"] = [] ∧
      run rooted ["check"] = checkedUnder rooted.workspace rootedConfig "." .text none [] ∧
      run rooted ["--config=./chainlint.toml", "check", "pkg"] =
        checkedUnder rooted.workspace rootedConfig "pkg" .text none [] := by
  have bare : operands ["check"] = [] := by decide +kernel
  have runs := run_without_operand rooted ["check"] rootedConfig "." "./chainlint.toml" .text none []
    none check_asked bare rooted_found load_rooted
  exact ⟨bare, runs.1 "pkg", (runs.2 _ rooted_asked_below).1⟩

def rootedAnalyzer (root : String) : Analyzer where
  root := root
  rules := Rule.configured rootedConfig
  language := Go.language
  exclusions := []
  config := rootedConfig
  failOnParseError := false

theorem checkWith_rooted (path root : String) (found files : List (String × Content)) (n : Nat)
    (absolute : rooted.workspace.absolute path = root)
    (discovered : rooted.workspace.files.discover true root = .ok found)
    (selected : found.filter (fun f => (rootedAnalyzer root).selects f.1) = files)
    (ordered : files.Pairwise fun f g => (Path.compare f.1 g.1 != .gt) = true)
    (checked : (rootedAnalyzer root).checkFiles files = .ok ⟨[], n⟩) :
    checkWith rooted.workspace rootedConfig path none [] = .ok ⟨[], n⟩ := by
  have built : (planFor path rootedConfig none []).build rooted.workspace.directory =
      .ok (rootedAnalyzer root) := by
    rw [build_planFor, ← absolute]
    rfl
  have sorted : (rootedAnalyzer root).select found = files := by
    rw [Analyzer.select, selected]
    exact List.mergeSort_of_pairwise ordered
  have discovered' : rooted.workspace.files.discover
      (rootedAnalyzer root).config.scope.respectGitignore (rootedAnalyzer root).root = .ok found :=
    discovered
  rw [checkWith, built]
  simp [Analyzer.analyze, discovered', sorted, checked, Except.map, Report.sort]

/-- The run without an operand sees both files of that project, the other one only the file below the
root that the settings name. -/
theorem configured_root_unchecked :
    Config.load rooted.workspace "./chainlint.toml" = .ok rootedConfig ∧
      rootedConfig.scope.root = "pkg" ∧
      (run rooted ["check"]).stdout ≠
        (run rooted ["--config=./chainlint.toml", "check", "pkg"]).stdout := by
  have both := checkWith_rooted "." "/w/."
    [("/w/./a.go", .text ""),
      ("/w/./chainlint.toml", .text "[analyzer]\nroot = \"pkg\"\n"), ("/w/./pkg/b.go", .text "")]
    [("/w/./a.go", .text ""), ("/w/./pkg/b.go", .text "")] 2
    rfl (by decide +kernel) (by decide +kernel) (by decide +kernel) (by decide +kernel)
  have one := checkWith_rooted "pkg" "/w/pkg" [("/w/pkg/b.go", .text "")]
    [("/w/pkg/b.go", .text "")] 1
    rfl (by decide +kernel) (by decide +kernel) (by decide +kernel) (by decide +kernel)
  have here := run_check check_asked rooted_found load_rooted
  have below := run_check rooted_asked_below rooted_found_below load_rooted
  refine ⟨load_rooted, rfl, ?_⟩
  rw [here, below, checkedUnder, checkedUnder, both, one]
  change Report.renderText ⟨[], 2⟩ ≠ Report.renderText ⟨[], 1⟩
  decide +kernel

end CommandLine
end SwitchLint
