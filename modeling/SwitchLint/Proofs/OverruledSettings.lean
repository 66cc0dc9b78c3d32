import SwitchLint.Proofs.DifferingFiles
import SwitchLint.Proofs.InitialSettings

/-!
Settings that are overruled. Of the files that may hold the settings of a check only the first one that is
there is read. What the others hold, and whether they are there at all, makes no difference. The one that is
read has the last word: if it cannot be read or makes no sense, the check fails.
-/

namespace SwitchLint

namespace ConfigSource

/-- The files that may hold the settings of a check if none is given. The first that is there counts. -/
def candidates (path : String) (globalDirectory : Option String) : List String :=
  projectNames.map (Path.append path) ++ (globalDirectory.map (Path.append · globalName)).toList

theorem path_resolve (w : Workspace) (path : String) (given globalDirectory : Option String) :
    (resolve w path given globalDirectory).path? =
      given.or ((candidates path globalDirectory).find? w.isFile) := by
  cases given with
  | some settings => rfl
  | none =>
    rw [resolve, candidates, List.find?_append, Option.none_or]
    cases (projectNames.map (Path.append path)).find? w.isFile with
    | some settings => rfl
    | none =>
      cases globalDirectory with
      | none => rfl
      | some dir =>
        cases file : w.isFile (Path.append dir globalName) <;> simp [Option.filter_some, file, path?]

end ConfigSource

namespace Workspace

open FileTree (SameBut)

variable {w w' : Workspace}

theorem read_eq {path : String} {top : List String} (way : w.names path = .ok top) :
    w.read path = match w.files.at? top with
      | some (some content) => content.toText
      | some none => .error .isDirectory
      | none => .error .missing := by
  rw [read, way, FileTree.at?]
  simp only [bind, Except.bind]
  cases w.files.node? top with
  | none => rfl
  | some node => cases node <;> rfl

theorem isSome_of_names {path : String} {top : List String} (way : w.names path = .ok top) :
    (w.files.node? top).isSome = true := by
  rw [names] at way
  split at way
  · cases way
  · exact FileTree.isSome_of_names way

theorem isFile_eq_false {path : String} :
    w.isFile path = false ↔ ∀ content, w.node? path ≠ some (.file content) := by
  rw [← Bool.not_eq_true, isFile_iff_node, not_exists]

/-- The first of the paths that leads to a file. Directories count for nothing. -/
theorem find_isFile_iff (paths : List String) (path : String) :
    paths.find? w.isFile = some path ↔ ∃ before after, paths = before ++ path :: after ∧
      (∀ other ∈ before, ∀ content, w.node? other ≠ some (.file content)) ∧
      ∃ content, w.node? path = some (.file content) := by
  rw [List.find?_eq_some_iff_append, isFile_iff_node]
  simp only [Bool.not_eq_true', isFile_eq_false]
  constructor
  · rintro ⟨file, before, after, whole, others⟩
    exact ⟨before, after, whole, others, file⟩
  · rintro ⟨before, after, whole, others, file⟩
    exact ⟨file, before, after, whole, others⟩

theorem names_of_sameBut {apart : List String → Prop} (directory : w'.directory = w.directory)
    (same : SameBut apart w.files w'.files) {path : String} {top : List String}
    (way : w.names path = .ok top) (there : (w'.files.node? top).isSome = true) :
    w'.names path = .ok top := by
  rw [names] at way ⊢
  split at way
  · cases way
  · rename_i nonempty
    rw [if_neg nonempty, absolute, directory]
    exact same.names way there

end Workspace

namespace CommandLine

open ConfigSource (candidates)
open FileTree (SameBut LeadsAlike PassesAlike)

/-! ### What a run answers -/

/-- What the caller of a run gets: the status, what is printed, and what is told of failures and of files
that are written. -/
def Outcome.answer (o : Outcome) : Nat × String × String × List String :=
  (o.status, o.stdout, o.stderr, o.written)

def firstLine (text : String) : List Char := text.toList.takeWhile (· ≠ '\n')

/-- The answers differ at most in the causes of a failure, which are told under the first line. -/
structure Outcome.Alike (o o' : Outcome) : Prop where
  status : o'.status = o.status
  stdout : o'.stdout = o.stdout
  summary : firstLine o'.stderr = firstLine o.stderr
  written : o'.written = o.written

theorem firstLine_append (text rest : String) (next : rest.toList.head? = some '\n') :
    firstLine (text ++ rest) = firstLine text := by
  obtain ⟨cs, whole⟩ : ∃ cs, rest.toList = '\n' :: cs := by
    cases chars : rest.toList with
    | nil => simp [chars] at next
    | cons c cs => exact ⟨cs, by simpa [chars] using next⟩
  rw [firstLine, firstLine, String.toList_append, whole, List.takeWhile_append]
  split
  · rename_i oneLine
    rw [List.takeWhile_cons_of_neg (by simp), List.append_nil]
    exact ((List.takeWhile_prefix _).eq_of_length oneLine).symm
  · rfl

theorem firstLine_text (f : Failure) : firstLine f.text = firstLine ("Error: " ++ f.summary) := by
  have behind : (Failure.causeText f.causes ++ "\n").toList.head? = some '\n' := by
    cases f.causes with
    | nil => rfl
    | cons cause causes => cases causes <;> simp [Failure.causeText]
  have whole : f.text = "Error: " ++ f.summary ++ (Failure.causeText f.causes ++ "\n") := by
    simp only [Failure.text, String.append_assoc]
    rfl
  rw [whole, firstLine_append _ _ behind]

theorem failure_alike (w w' : Workspace) {f f' : Failure} (same : f'.summary = f.summary) :
    (failure w f).Alike (failure w' f') where
  status := rfl
  stdout := rfl
  summary := by
    simp only [failure]
    rw [firstLine_text, firstLine_text, same]
  written := rfl

/-! ### Trees that differ in settings -/

/-- One of the files that may hold settings is there, in one of the surroundings. -/
def SettingsPlace (path : String) (s s' : Surroundings) (names : List String) : Prop :=
  ∃ settings ∈ candidates path s.globalDirectory,
    s.workspace.names settings = .ok names ∨ s'.workspace.names settings = .ok names

/-- The surroundings differ at most in the files that may hold the settings of a check: which of them are
there, and what they hold. -/
structure DifferInSettings (path : String) (s s' : Surroundings) : Prop where
  globalDirectory : s'.globalDirectory = s.globalDirectory
  directory : s'.workspace.directory = s.workspace.directory
  nonempty : s.workspace.directory ≠ ""
  proper : s.workspace.files.Proper
  proper' : s'.workspace.files.Proper
  files : SameBut (SettingsPlace path s s') s.workspace.files s'.workspace.files

/-- The file that a path leads to is not one of those that may hold the settings if none is given. -/
def NamesAnother (path : String) (s s' : Surroundings) (settings : String) : Prop :=
  ∀ top, s.workspace.names settings = .ok top ∨ s'.workspace.names settings = .ok top →
    ¬ SettingsPlace path s s' top

theorem candidate_name {path settings : String} {globalDirectory : Option String}
    (member : settings ∈ candidates path globalDirectory) :
    ∃ base name, settings = Path.append base name ∧ IsName name ∧ mayRead name = false := by
  rcases List.mem_append.mp member with own | global
  · simp only [ConfigSource.projectNames, List.map_cons, List.map_nil, List.mem_cons, List.not_mem_nil,
      or_false] at own
    rcases own with rfl | rfl
    · exact ⟨path, _, rfl, templateName_isName, by decide⟩
    · exact ⟨path, _, rfl, hiddenName_isName, by decide⟩
  · obtain ⟨dir, -, rfl⟩ := Option.map_eq_some_iff.mp (Option.mem_toList.mp global)
    exact ⟨dir, _, rfl, globalName_isName, by decide⟩

namespace DifferInSettings

variable {path : String} {s s' : Surroundings} (differ : DifferInSettings path s s')

include differ

/-- No file that may hold settings is one that a check looks at. -/
theorem refuses : FileTree.Refuses mayRead (SettingsPlace path s s') := by
  rintro names ⟨settings, member, way⟩
  obtain ⟨base, name, rfl, proper, refused⟩ := candidate_name member
  obtain ⟨here, rfl⟩ : ∃ here, names = here ++ [name] := by
    rcases way with way | way
    · obtain ⟨here, -, place, -⟩ := (Workspace.names_of_append differ.nonempty proper names).mp way
      exact ⟨here, place⟩
    · have nonempty' := differ.directory ▸ differ.nonempty
      obtain ⟨here, -, place, -⟩ := (Workspace.names_of_append nonempty' proper names).mp way
      exact ⟨here, place⟩
  simp [refused]

/-- Where the path leads to the same, a check comes to the same, or finds nothing to look at in either
tree. -/
theorem checkWith_same (leads : LeadsAlike s.workspace.files s'.workspace.files (s.workspace.absolute path))
    (config : Config) (names : Option (List String)) (excludes : List String) :
    checkWith s'.workspace config path names excludes = checkWith s.workspace config path names excludes ∨
      ∃ fault fault',
        checkWith s.workspace config path names excludes = .error (.analysis (.undiscovered fault)) ∧
        checkWith s'.workspace config path names excludes = .error (.analysis (.undiscovered fault')) ∧
        (s'.workspace.files.names (s.workspace.absolute path) =
          s.workspace.files.names (s.workspace.absolute path) → fault' = fault) := by
  rw [checkWith, checkWith, build_planFor, build_planFor, differ.directory]
  cases Analyzer.parseExclusions (excludes ++ config.scope.exclude) with
  | error fault => exact .inl rfl
  | ok exclusions =>
    simp only [Except.map]
    let a : Analyzer := ⟨Path.append s.workspace.directory path, rulesFor config names, Go.language,
      exclusions, config, false⟩
    rcases a.analyze_same language_keptBy_mayRead differ.files differ.refuses keepsIgnoreFiles_mayRead
      differ.proper differ.proper' leads with same | ⟨fault, fault', ended, ended', equal⟩
    · left
      rw [same]
    · exact .inr ⟨fault, fault', by rw [ended], by rw [ended'], equal⟩

theorem checkedUnder_alike
    (leads : LeadsAlike s.workspace.files s'.workspace.files (s.workspace.absolute path))
    (config : Config) (format : OutputFormat) (names : Option (List String)) (excludes : List String) :
    (checkedUnder s.workspace config path format names excludes).Alike
      (checkedUnder s'.workspace config path format names excludes) := by
  rw [checkedUnder, checkedUnder]
  rcases differ.checkWith_same leads config names excludes with same | ⟨fault, fault', ended, ended', -⟩
  · rw [same]
    cases checkWith s.workspace config path names excludes with
    | error f => exact failure_alike _ _ rfl
    | ok report => exact ⟨rfl, rfl, rfl, rfl⟩
  · rw [ended, ended']
    exact failure_alike _ _ rfl

theorem checkedUnder_same
    (passes : PassesAlike s.workspace.files s'.workspace.files (s.workspace.absolute path))
    (config : Config) (format : OutputFormat) (names : Option (List String)) (excludes : List String) :
    (checkedUnder s'.workspace config path format names excludes).answer =
      (checkedUnder s.workspace config path format names excludes).answer := by
  have same : checkWith s'.workspace config path names excludes =
      checkWith s.workspace config path names excludes := by
    rcases differ.checkWith_same passes.leads config names excludes with
      same | ⟨fault, fault', ended, ended', equal⟩
    · exact same
    · rw [ended, ended', equal (differ.files.names_eq passes)]
  rw [checkedUnder, checkedUnder, same]
  cases checkWith s.workspace config path names excludes <;> rfl

/-! ### Reading the settings -/

theorem names_another {settings : String} (another : NamesAnother path s s' settings)
    (top : List String) : s'.workspace.names settings = .ok top ↔ s.workspace.names settings = .ok top := by
  constructor
  · intro way'
    have equal := differ.files.elsewhere (another top (.inr way'))
    refine Workspace.names_of_sameBut differ.directory.symm differ.files.symm way' ?_
    rw [← FileTree.isSome_at, ← equal, FileTree.isSome_at]
    exact Workspace.isSome_of_names way'
  · intro way
    have equal := differ.files.elsewhere (another top (.inl way))
    refine Workspace.names_of_sameBut differ.directory differ.files way ?_
    rw [← FileTree.isSome_at, equal, FileTree.isSome_at]
    exact Workspace.isSome_of_names way

/-- Another file that is given for the settings is read alike; or the path that is given leads to nothing in
either tree. -/
theorem load_another {settings : String} (another : NamesAnother path s s' settings) :
    Config.load s'.workspace settings = Config.load s.workspace settings ∨
      ∃ fault fault', Config.load s.workspace settings = .error (.unreadable settings fault) ∧
        Config.load s'.workspace settings = .error (.unreadable settings fault') ∧
        (s'.workspace.names settings = s.workspace.names settings → fault' = fault) := by
  cases way : s.workspace.names settings with
  | ok top =>
    left
    have way' := (differ.names_another another top).mpr way
    have equal := differ.files.elsewhere (another top (.inl way))
    rw [Config.load, Config.load, Workspace.read_eq way, Workspace.read_eq way', equal]
  | error fault =>
    cases way' : s'.workspace.names settings with
    | ok top =>
      rw [(differ.names_another another top).mp way'] at way
      cases way
    | error fault' =>
      have unread {w : Workspace} {fault : FileFault} (way : w.names settings = .error fault) :
          Config.load w settings = .error (.unreadable settings fault) := by
        rw [Config.load, Workspace.read, way]
        rfl
      refine .inr ⟨fault, fault', unread way, unread way', fun equal => ?_⟩
      exact Except.error.inj equal

/-- A project's own file that is there stands in a directory, which is checked in both trees. -/
theorem passes_of_own {name : String} (proper : IsName name) {node : FileTree}
    (found : s.workspace.node? (Path.append path name) = some node) :
    PassesAlike s.workspace.files s'.workspace.files (s.workspace.absolute path) := by
  obtain ⟨top, way, reached⟩ := Workspace.node_eq_some.mp found
  obtain ⟨here, inside, rfl, -⟩ := (Workspace.names_of_append differ.nonempty proper top).mp way
  obtain ⟨es, directory⟩ : ∃ es, s.workspace.files.node? here = some (.directory es) := by
    rw [FileTree.node_snoc] at reached
    obtain ⟨parent, above, child⟩ := Option.bind_eq_some_iff.mp reached
    cases parent with
    | file content => cases child
    | directory es => exact ⟨es, above⟩
  refine differ.files.passesAlike inside ?_
  rw [← FileTree.isSome_at, differ.files.directory (FileTree.at_eq_directory.mpr ⟨es, directory⟩)]
  rfl

end DifferInSettings

/-! ### Runs -/

section

variable {s : Surroundings} {args : List String} {path settings : String} {format : OutputFormat}
  {names : Option (List String)} {excludes : List String} {given : Option String}
  (asked : parse args = .ok ⟨.check path format names excludes, given⟩)

include asked

theorem run_of_chosen
    (chosen : (ConfigSource.resolve s.workspace path given s.globalDirectory).path? = some settings) :
    run s args = match Config.load s.workspace settings with
      | .error e => failure s.workspace (.config settings e)
      | .ok config => checkedUnder s.workspace config path format names excludes := by
  rw [run_of_source asked, Config.ofSource, chosen]
  rfl

theorem run_of_unset
    (unset : (ConfigSource.resolve s.workspace path given s.globalDirectory).path? = none) :
    run s args = checkedUnder s.workspace {} path format names excludes := by
  rw [run_of_source asked, Config.ofSource, unset]

/-- Runs under settings that are read alike from one path answer the same, if what is checked is. -/
theorem answer_of_load {s' : Surroundings} (differ : DifferInSettings path s s')
    (passes : PassesAlike s.workspace.files s'.workspace.files (s.workspace.absolute path))
    (chosen : (ConfigSource.resolve s.workspace path given s.globalDirectory).path? = some settings)
    (chosen' : (ConfigSource.resolve s'.workspace path given s'.globalDirectory).path? = some settings)
    (same : Config.load s'.workspace settings = Config.load s.workspace settings) :
    (run s' args).answer = (run s args).answer := by
  rw [run_of_chosen asked chosen, run_of_chosen asked chosen', same]
  cases Config.load s.workspace settings with
  | error e => rfl
  | ok config => exact differ.checkedUnder_same passes config format names excludes

theorem answer_of_own {s' : Surroundings} (differ : DifferInSettings path s s') {name : String}
    (proper : IsName name) {content : Content}
    (found : s.workspace.node? (Path.append path name) = some (.file content))
    (found' : s'.workspace.node? (Path.append path name) = some (.file content))
    (chosen : (ConfigSource.resolve s.workspace path given s.globalDirectory).path? =
      some (Path.append path name))
    (chosen' : (ConfigSource.resolve s'.workspace path given s'.globalDirectory).path? =
      some (Path.append path name)) : (run s' args).answer = (run s args).answer := by
  refine answer_of_load asked differ (differ.passes_of_own proper found) chosen chosen' ?_
  obtain ⟨top, way, reached⟩ := Workspace.node_eq_some.mp found
  obtain ⟨top', way', reached'⟩ := Workspace.node_eq_some.mp found'
  rw [Config.load, Config.load, Workspace.read_of_node way reached, Workspace.read_of_node way' reached']

/-- A run that is given settings answers alike, whatever the files hold that are not given. -/
theorem alike_of_given {s' : Surroundings} (differ : DifferInSettings path s s')
    (explicit : given = some settings) (another : NamesAnother path s s' settings)
    (leads : LeadsAlike s.workspace.files s'.workspace.files (s.workspace.absolute path)) :
    (run s args).Alike (run s' args) ∧
      (PassesAlike s.workspace.files s'.workspace.files (s.workspace.absolute path) →
        PassesAlike s.workspace.files s'.workspace.files (s.workspace.absolute settings) →
        (run s' args).answer = (run s args).answer) := by
  subst explicit
  rw [run_of_chosen asked rfl, run_of_chosen asked rfl]
  rcases differ.load_another another with same | ⟨fault, fault', unread, unread', equal⟩
  · rw [same]
    cases Config.load s.workspace settings with
    | error e => exact ⟨failure_alike _ _ rfl, fun _ _ => rfl⟩
    | ok config =>
      exact ⟨differ.checkedUnder_alike leads config format names excludes,
        fun passes _ => differ.checkedUnder_same passes config format names excludes⟩
  · rw [unread, unread']
    refine ⟨failure_alike _ _ rfl, fun _ passes => ?_⟩
    have way : s'.workspace.names settings = s.workspace.names settings := by
      rw [Workspace.names, Workspace.names, Workspace.absolute, Workspace.absolute, differ.directory,
        ← Workspace.absolute, differ.files.names_eq passes]
    rw [equal way]
    rfl

end

/-! ### Settings that are written -/

/-- The surroundings with that text in the file to which the names lead. -/
def Surroundings.withFile (s : Surroundings) (names : List String) (text : String) : Surroundings :=
  { s with workspace :=
      { s.workspace with files := s.workspace.files.graft names (.file (.text text)) } }

/-- A file that may hold settings, and is written where no directory is, makes no other difference. -/
theorem differInSettings_withFile {s : Surroundings} {path name : String}
    {es : List (String × FileTree)} (here : List String) (settings text : String)
    (nonempty : s.workspace.directory ≠ "") (proper : s.workspace.files.Proper) (own : IsName name)
    (inside : s.workspace.files.node? here = some (.directory es))
    (free : s.workspace.files.at? (here ++ [name]) ≠ some none)
    (member : settings ∈ candidates path s.globalDirectory)
    (leads : (s.withFile (here ++ [name]) text).workspace.names settings = .ok (here ++ [name])) :
    DifferInSettings path s (s.withFile (here ++ [name]) text) where
  globalDirectory := rfl
  directory := rfl
  nonempty := nonempty
  proper := proper
  proper' := FileTree.graft_proper proper own inside
  files := FileTree.sameBut_graft inside free ⟨settings, member, .inr leads⟩

theorem rooted_proper : rooted.workspace.files.Proper := by
  have name : IsName "w" ∧ IsName "a.go" ∧ IsName "chainlint.toml" ∧ IsName "pkg" ∧ IsName "b.go" := by
    refine ⟨?_, ?_, ?_, ?_, ?_⟩ <;> constructor <;> decide
  simp [rooted, FileTree.Proper, FileTree.ProperEntries, name]

/-- Where a path leads to something else than each of the candidates, it names another file. -/
theorem namesAnother_of_ne {s s' : Surroundings} {path settings : String} {top : List String}
    (way : s.workspace.names settings = .ok top) (way' : s'.workspace.names settings = .ok top)
    (apart : ∀ candidate ∈ candidates path s.globalDirectory,
      (s.workspace.names candidate).toOption ≠ some top ∧
        (s'.workspace.names candidate).toOption ≠ some top) : NamesAnother path s s' settings := by
  rintro top' leads ⟨candidate, member, clash⟩
  obtain rfl : top = top' := by
    rcases leads with leads | leads
    · exact Except.ok.inj (way.symm.trans leads)
    · exact Except.ok.inj (way'.symm.trans leads)
  rcases clash with clash | clash
  · exact (apart candidate member).1 (by rw [clash]; rfl)
  · exact (apart candidate member).2 (by rw [clash]; rfl)

/-- The project of `rooted` with a second file of settings, which are nonsense. -/
def overruled : Surroundings := rooted.withFile ["w", ".chainlint.toml"] "fail_on"

/-- The same nonsense where only a check of `pkg` looks for settings. -/
def overruledBelow : Surroundings := rooted.withFile ["w", "pkg", "chainlint.toml"] "fail_on"

/-- A file that is not of the language is found, and not checked. -/
theorem checkWith_of_unhandled {w : Workspace} {path : String} {top : List String} {content : Content}
    (way : w.files.names (w.absolute path) = .ok top) (reached : w.files.node? top = some (.file content))
    (unhandled : Go.language.handles (w.absolute path) = false) :
    checkWith w {} path none [] = .ok ⟨[], 0⟩ := by
  have accepted : (Analyzer.parseExclusions Scope.default.exclude).isOk = true := by decide
  cases patterns : Analyzer.parseExclusions Scope.default.exclude with
  | error e =>
    rw [patterns] at accepted
    cases accepted
  | ok exclusions =>
    exact checkWith_of_steps exclusions [(w.absolute path, content)] [] patterns
      (FileTree.discover_file way reached) (by simp [unhandled]) List.Pairwise.nil rfl List.Pairwise.nil

/-- A project beside a directory for global settings, which holds none. -/
def unshared : Surroundings where
  workspace :=
    { directory := "/work/project"
      files := .directory [("work", .directory
        [("project", .directory [("x.toml", .file (.text ""))]), ("global", .directory [])])] }
  globalDirectory := some "/work/global"

/-- The same with global settings, which say nothing. -/
def shared : Surroundings := unshared.withFile ["work", "global", "config.toml"] ""

theorem unshared_proper : unshared.workspace.files.Proper := by
  have name : IsName "work" ∧ IsName "project" ∧ IsName "x.toml" ∧ IsName "global" := by
    refine ⟨?_, ?_, ?_, ?_⟩ <;> constructor <;> decide
  simp [unshared, FileTree.Proper, FileTree.ProperEntries, name]

end CommandLine

end SwitchLint
