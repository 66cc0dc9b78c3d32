import SwitchLint.Proofs.Independence
import SwitchLint.Proofs.NamedFiles
import SwitchLint.Proofs.SeenFiles

/-!
Checks that come to the same: under settings that say the same of files and rules, and in trees that hold
the same directories, ignore files and files of the language.
-/

namespace SwitchLint

/-- The settings say the same of the files and of every rule. They may differ in the threshold, and in how
they say it. -/
structure Config.RunsAlike (config config' : Config) : Prop where
  scope : config'.scope = config.scope
  configured : Rule.configured config' = Rule.configured config
  enabled : ∀ name, config'.isEnabled name = config.isEnabled name
  severity : ∀ name, config'.severity? name = config.severity? name

/-- No file whose name `keep` refuses is one of the language. -/
def Language.KeptBy (l : Language) (keep : String → Bool) : Prop :=
  ∀ path, l.handles path = true → FileTree.staysAt keep path = true

namespace Analyzer

theorem select_alike_of_kept (a : Analyzer) {keep : String → Bool} (files : a.language.KeptBy keep)
    {found found' : List (String × Content)}
    (same : (found.filter fun f => FileTree.staysAt keep f.1) =
      found'.filter fun f => FileTree.staysAt keep f.1) : a.select found = a.select found' := by
  have stays (found : List (String × Content)) : (found.filter fun f => a.selects f.1) =
      (found.filter fun f => FileTree.staysAt keep f.1).filter fun f => a.selects f.1 := by
    rw [List.filter_filter]
    refine List.filter_congr fun f _ => ?_
    cases selected : a.selects f.1 with
    | false => rfl
    | true =>
      rw [selects, Bool.and_eq_true] at selected
      simp [files f.1 selected.1]
  rw [select, select, stays found, stays found', same]

/-- A check that finds its root looks at nothing but directories, ignore files and files of the
language. -/
theorem analyze_of_keeping (a : Analyzer) {keep : String → Bool} (files : a.language.KeptBy keep)
    (ignore : FileTree.KeepsIgnoreFiles keep) {t t' : FileTree} (proper : t.Proper) (proper' : t'.Proper)
    (same : t.keeping keep = t'.keeping keep) {found found' : List (String × Content)}
    (discovered : t.discover a.config.scope.respectGitignore a.root = .ok found)
    (discovered' : t'.discover a.config.scope.respectGitignore a.root = .ok found') :
    a.analyze t = a.analyze t' := by
  have alike := FileTree.discover_alike ignore proper proper' same discovered discovered'
  rw [analyze, analyze, discovered, discovered']
  simp only [a.select_alike_of_kept files alike]

/-- Analyzers that read the same files and let the same be found in each come to the same. -/
theorem analyze_of_findings {a b : Analyzer} (alike : a.ReadsAlike b) (tree : FileTree)
    (same : ∀ file source, b.rules.flatMap (b.runRule file source) =
      a.rules.flatMap (a.runRule file source)) : b.analyze tree = a.analyze tree := by
  have found (f : String × Content) : b.foundIn f = a.foundIn f :=
    foundIn_alike alike (fun vs ws => ws = vs) rfl same f
  rcases analyze_alike alike tree with ⟨e, failed, failed'⟩ | ⟨files, checked, done, done'⟩
  · rw [failed, failed']
  · rw [done, done', funext found]

end Analyzer

namespace CommandLine

theorem language_keptBy_mayRead : Go.language.KeptBy mayRead := by
  intro path handled
  cases file : Path.fileName? path with
  | none => simp [FileTree.staysAt, file]
  | some name =>
    have same : Go.language.handles (String.ofList name) = Go.language.handles path := by
      simp only [Language.handles, Path.hasExtension, Path.fileName_of_fileName file, file]
    simp [FileTree.staysAt, file, mayRead, same, handled]

theorem keepsIgnoreFiles_mayRead : FileTree.KeepsIgnoreFiles mayRead := by
  intro names member
  cases last : names.getLast? with
  | none => rfl
  | some name =>
    have known : ((Ignore.fileNames true).filterMap List.getLast?).contains name = true :=
      List.contains_iff_mem.mpr (List.mem_filterMap.mpr ⟨names, member, last⟩)
    rw [Option.all_some, mayRead, known, Bool.or_true]

theorem checkWith_runsAlike (w : Workspace) {config config' : Config} (alike : config.RunsAlike config')
    (path : String) (names : Option (List String)) (excludes : List String) :
    checkWith w config' path names excludes = checkWith w config path names excludes := by
  have rules : rulesFor config' names = rulesFor config names := by
    cases names <;> simp only [rulesFor, alike.configured]
  rw [checkWith, checkWith, build_planFor, build_planFor, alike.scope, rules]
  cases Analyzer.parseExclusions (excludes ++ config.scope.exclude) with
  | error fault => rfl
  | ok exclusions =>
    let a : Analyzer := ⟨Path.append w.directory path, rulesFor config names, Go.language, exclusions,
      config, false⟩
    let b : Analyzer := { a with config := config' }
    have reads : a.ReadsAlike b :=
      ⟨rfl, rfl, rfl, congrArg Scope.respectGitignore alike.scope, rfl⟩
    have run (file : FileContext) (source : SourceFile) : b.runRule file source = a.runRule file source := by
      funext r
      rw [Analyzer.runRule, Analyzer.runRule, alike.enabled, alike.severity]
    have same : b.analyze w.files = a.analyze w.files :=
      Analyzer.analyze_of_findings reads w.files fun file source => by rw [run file source]
    simp only [Except.map]
    rw [same]

/-- The workspaces have one working directory, and their trees agree on all that a check may read. -/
structure SeesAlike (w w' : Workspace) : Prop where
  directory : w'.directory = w.directory
  proper : w.files.Proper
  proper' : w'.files.Proper
  files : w'.files.keeping mayRead = w.files.keeping mayRead

/-- Where the path leads somewhere in both trees, the check comes to the same. -/
theorem checkWith_seesAlike {w w' : Workspace} (alike : SeesAlike w w') {config : Config} {path : String}
    {found found' : List (String × Content)}
    (discovered : w.files.discover config.scope.respectGitignore (w.absolute path) = .ok found)
    (discovered' : w'.files.discover config.scope.respectGitignore (w.absolute path) = .ok found')
    (names : Option (List String)) (excludes : List String) :
    checkWith w' config path names excludes = checkWith w config path names excludes := by
  rw [checkWith, checkWith, build_planFor, build_planFor, alike.directory]
  cases Analyzer.parseExclusions (excludes ++ config.scope.exclude) with
  | error fault => rfl
  | ok exclusions =>
    simp only [Except.map]
    rw [Analyzer.analyze_of_keeping _ language_keptBy_mayRead keepsIgnoreFiles_mayRead alike.proper'
      alike.proper alike.files discovered' discovered]

/-- A check that comes to an end has found its root. -/
theorem discovered_of_checkWith {w : Workspace} {config : Config} {path : String}
    {names : Option (List String)} {excludes : List String} {report : Report}
    (checked : checkWith w config path names excludes = .ok report) :
    ∃ found, w.files.discover config.scope.respectGitignore (w.absolute path) = .ok found := by
  rw [checkWith, build_planFor] at checked
  cases parsed : Analyzer.parseExclusions (excludes ++ config.scope.exclude) with
  | error fault => simp [parsed, Except.map] at checked
  | ok exclusions =>
    simp only [parsed, Except.map] at checked
    split at checked
    · cases checked
    · rename_i analyzed
      obtain ⟨found, discovered, -⟩ := Analyzer.mem_violations _ analyzed
      exact ⟨found, discovered⟩

/-- A check step by step: what its patterns are, what is discovered and selected, and what is found. -/
theorem checkWith_of_steps {w : Workspace} {config : Config} {path : String}
    (exclusions : List Exclusion) (found files : List (String × Content)) {report : Report}
    (patterns : Analyzer.parseExclusions config.scope.exclude = .ok exclusions)
    (discovered : w.files.discover config.scope.respectGitignore (w.absolute path) = .ok found)
    (selected : (found.filter fun f => Go.language.handles f.1 &&
      !excluded exclusions (w.absolute path) f.1) = files)
    (ordered : files.Pairwise fun f g => (Path.compare f.1 g.1 != .gt) = true)
    (checked : Analyzer.checkFiles ⟨w.absolute path, Rule.configured config, Go.language, exclusions,
      config, false⟩ files = .ok report)
    (sorted : report.violations.Pairwise fun a b => a.location.le b.location = true) :
    checkWith w config path none [] = .ok report := by
  rw [checkWith, build_planFor, List.nil_append, patterns]
  simp only [Except.map, Analyzer.analyze, rulesFor]
  rw [Workspace.absolute] at discovered checked selected
  rw [discovered]
  have chosen : Analyzer.select ⟨Path.append w.directory path, Rule.configured config, Go.language,
      exclusions, config, false⟩ found = files := by
    have kept : (found.filter fun f => Analyzer.selects ⟨Path.append w.directory path,
        Rule.configured config, Go.language, exclusions, config, false⟩ f.1) = files := selected
    rw [Analyzer.select, kept]
    exact List.mergeSort_of_pairwise ordered
  simp only [chosen, checked, Report.sort, List.mergeSort_of_pairwise sorted]

end CommandLine

end SwitchLint
