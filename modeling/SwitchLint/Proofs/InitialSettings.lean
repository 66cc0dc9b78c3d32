import SwitchLint.Proofs.ExitStatus
import SwitchLint.Proofs.NewFile
import SwitchLint.Proofs.TemplateSettings

/-!
The settings that a project begins with say what holds without them. A check comes to the same before and
after they are written, unless its path leads to the very file that holds them.
-/

namespace SwitchLint

namespace Workspace

variable {w : Workspace}

theorem node_eq_some {path : String} {node : FileTree} : w.node? path = some node ↔
    ∃ top, w.names path = .ok top ∧ w.files.node? top = some node := by
  rw [node?]
  cases w.names path <;> simp

theorem isFile_iff_node {path : String} :
    w.isFile path = true ↔ ∃ content, w.node? path = some (.file content) := by
  rw [isFile]
  cases w.node? path with
  | none => simp
  | some node => cases node <;> simp

theorem isFile_iff {path : String} : w.isFile path = true ↔
    ∃ top content, w.names path = .ok top ∧ w.files.node? top = some (.file content) := by
  simp only [isFile_iff_node, node_eq_some]
  exact exists_comm

theorem read_of_node {path : String} {top : List String} {content : Content}
    (way : w.names path = .ok top) (reached : w.files.node? top = some (.file content)) :
    w.read path = content.toText := by
  simp [read, way, reached, bind, Except.bind]

theorem names_of_append (nonempty : w.directory ≠ "") {path name : String} (proper : IsName name)
    (top : List String) : w.names (Path.append path name) = .ok top ↔
      ∃ here, w.files.names (w.absolute path) = .ok here ∧ top = here ++ [name] ∧
        (w.files.node? top).isSome = true := by
  have some : Path.append path name ≠ "" := by
    rw [Path.append_eq_lead]
    intro empty
    exact proper.nonempty (by simpa using (String.append_eq_empty_iff.mp empty).2)
  rw [names, if_neg some, absolute, Path.append_append _ _ proper,
    FileTree.names_append_iff (Path.append_ne_empty nonempty) proper]
  rfl

theorem names_of_name (nonempty : w.directory ≠ "") {name : String} (proper : IsName name)
    (top : List String) : w.names name = .ok top ↔
      ∃ here, w.files.names w.directory = .ok here ∧ top = here ++ [name] ∧
        (w.files.node? top).isSome = true := by
  rw [names, if_neg proper.nonempty, absolute, FileTree.names_append_iff nonempty proper]

/-! ### A workspace with a new file -/

section

variable {w' : Workspace} {place : List String} {content : Content}
  (here : w'.directory = w.directory) (gains : w.files.Gains w'.files place content)

include here gains

theorem names_gained {path : String} {top : List String} : w.names path = .ok top ↔
    w'.names path = .ok top ∧ (w.files.node? top).isSome = true := by
  rw [names, names, absolute, absolute, here]
  split
  · constructor
    · intro wrong
      cases wrong
    · rintro ⟨wrong, -⟩
      cases wrong
  · exact gains.within.names_iff _ top

/-- A path that now leads to a file did so before, or leads to the new one. -/
theorem file_gained {path : String} {top : List String} {c : Content}
    (way : w'.names path = .ok top) (reached : w'.files.node? top = some (.file c))
    (other : top ≠ place) : w.names path = .ok top ∧ w.files.node? top = some (.file c) := by
  have known : (w.files.node? top).isSome = true := by
    rcases gains.only top (by simp [reached]) with known | same
    · exact known
    · exact absurd same other
  refine ⟨(names_gained here gains).mpr ⟨way, known⟩, ?_⟩
  obtain ⟨node, found⟩ := Option.isSome_iff_exists.mp known
  cases node with
  | file c' =>
    have same := gains.within.file top c' found
    rw [reached] at same
    rw [found, same]
  | directory es =>
    obtain ⟨es', clash⟩ := (gains.within.directory top).mp ⟨es, found⟩
    rw [reached] at clash
    cases clash

theorem isFile_gained {path : String} (other : w'.names path ≠ .ok place) :
    w'.isFile path = w.isFile path := by
  rw [Bool.eq_iff_iff, isFile_iff, isFile_iff]
  constructor
  · rintro ⟨top, c, way, reached⟩
    have apart : top ≠ place := fun same => other (same ▸ way)
    exact ⟨top, c, file_gained here gains way reached apart⟩
  · rintro ⟨top, c, way, reached⟩
    exact ⟨top, c, ((names_gained here gains).mp way).1, gains.within.file top c reached⟩

theorem read_gained {path : String} (file : w.isFile path = true) : w'.read path = w.read path := by
  obtain ⟨top, c, way, reached⟩ := isFile_iff.mp file
  rw [read_of_node way reached,
    read_of_node ((names_gained here gains).mp way).1 (gains.within.file top c reached)]

end

end Workspace

/-! ### The settings that are found -/

namespace ConfigSource

theorem resolve_none (w : Workspace) (path : String) (globalDirectory : Option String) :
    resolve w path none globalDirectory =
      if w.isFile (Path.append path "chainlint.toml") = true then
        project (Path.append path "chainlint.toml")
      else if w.isFile (Path.append path ".chainlint.toml") = true then
        project (Path.append path ".chainlint.toml")
      else
        match (globalDirectory.map (Path.append · globalName)).filter w.isFile with
        | some path => .global path
        | none => default := by
  simp only [resolve, projectNames, List.map_cons, List.map_nil, List.find?_cons, List.find?_nil]
  cases w.isFile (Path.append path "chainlint.toml") <;>
    cases w.isFile (Path.append path ".chainlint.toml") <;> rfl

end ConfigSource

namespace CommandLine

theorem templateName_isName : IsName templateName := by
  constructor <;> decide

theorem hiddenName_isName : IsName ".chainlint.toml" := by
  constructor <;> decide

theorem globalName_isName : IsName ConfigSource.globalName := by
  constructor <;> decide

section

variable {w w' : Workspace} {here : List String} {content : Content}
  (same : w'.directory = w.directory) (nonempty : w.directory ≠ "")
  (gains : w.files.Gains w'.files (here ++ [templateName]) content)

include same nonempty gains

/-- No path to a file of another name leads to the new one. -/
theorem isFile_of_other_name {path name : String} (proper : IsName name) (other : name ≠ templateName) :
    w'.isFile (Path.append path name) = w.isFile (Path.append path name) := by
  refine Workspace.isFile_gained same gains fun way => ?_
  obtain ⟨above, -, clash, -⟩ := (Workspace.names_of_append (same ▸ nonempty) proper _).mp way
  exact other (List.singleton_inj.mp (List.append_inj' clash rfl).2).symm

theorem hidden_unchanged (path : String) : w'.isFile (Path.append path ".chainlint.toml") =
    w.isFile (Path.append path ".chainlint.toml") :=
  isFile_of_other_name same nonempty gains hiddenName_isName (by decide)

theorem global_unchanged (dir : String) : w'.isFile (Path.append dir ConfigSource.globalName) =
    w.isFile (Path.append dir ConfigSource.globalName) :=
  isFile_of_other_name same nonempty gains globalName_isName (by decide)

/-- The new file is found under its name. -/
theorem names_of_new (inside : w.files.names w.directory = .ok here) :
    w'.names templateName = .ok (here ++ [templateName]) := by
  have inside' := ((gains.within.names_iff _ _).mp inside).1
  rw [← same] at inside' nonempty
  refine (Workspace.names_of_name nonempty templateName_isName _).mpr ⟨here, inside', rfl, ?_⟩
  rw [gains.present]
  rfl

/-- Where the new file is not found, the settings are those of before. -/
theorem resolve_elsewhere {path : String} {globalDirectory : Option String}
    (elsewhere : w'.names (Path.append path templateName) ≠ .ok (here ++ [templateName])) :
    ConfigSource.resolve w' path none globalDirectory = ConfigSource.resolve w path none globalDirectory := by
  have first := Workspace.isFile_gained same gains elsewhere
  have global : (globalDirectory.map (Path.append · ConfigSource.globalName)).filter w'.isFile =
      (globalDirectory.map (Path.append · ConfigSource.globalName)).filter w.isFile := by
    cases globalDirectory with
    | none => rfl
    | some dir => simp only [Option.map_some, Option.filter_some, global_unchanged same nonempty gains]
  rw [templateName] at first
  rw [ConfigSource.resolve_none, ConfigSource.resolve_none, first, hidden_unchanged same nonempty gains,
    global]

omit nonempty in
theorem ofSource_unchanged (path : String) (globalDirectory : Option String) :
    Config.ofSource w' (ConfigSource.resolve w path none globalDirectory) =
      Config.ofSource w (ConfigSource.resolve w path none globalDirectory) := by
  have loaded {path : String} (file : w.isFile path = true) : Config.load w' path = Config.load w path := by
    rw [Config.load, Config.load, Workspace.read_gained same gains file]
  rw [ConfigSource.resolve_none]
  split
  · rename_i file
    exact loaded file
  split
  · rename_i file
    exact loaded file
  cases found : (globalDirectory.map (Path.append · ConfigSource.globalName)).filter w.isFile with
  | none => rfl
  | some path => exact loaded (Option.filter_eq_some_iff.mp found).2

/-- Where the new file is found, no settings were. -/
theorem resolve_here (inside : w.files.names w.directory = .ok here) {path : String}
    {globalDirectory : Option String} (hidden : w.isFile ".chainlint.toml" = false)
    (noGlobal : ∀ dir, globalDirectory = some dir →
      w.isFile (Path.append dir ConfigSource.globalName) = false)
    (found : w'.names (Path.append path templateName) = .ok (here ++ [templateName])) :
    ConfigSource.resolve w path none globalDirectory = .default ∧
      ConfigSource.resolve w' path none globalDirectory =
        .project (Path.append path templateName) := by
  obtain ⟨above, way', clash, -⟩ :=
    (Workspace.names_of_append (same ▸ nonempty) templateName_isName _).mp found
  obtain rfl : here = above := (List.append_inj' clash rfl).1
  have own : w.isFile (Path.append path "chainlint.toml") = false := by
    rw [← Bool.not_eq_true, Workspace.isFile_iff]
    rintro ⟨top, c, way, reached⟩
    have way' := ((Workspace.names_gained same gains).mp way).1
    obtain rfl := Except.ok.inj (found.symm.trans way')
    rw [gains.absent] at reached
    cases reached
  have second : w.isFile (Path.append path ".chainlint.toml") = false := by
    rw [← Bool.not_eq_true, Workspace.isFile_iff]
    rintro ⟨top, c, way, reached⟩
    obtain ⟨above, lower, rfl, there⟩ := (Workspace.names_of_append nonempty hiddenName_isName _).mp way
    have lower' := ((gains.within.names_iff _ _).mp lower).1
    rw [Workspace.absolute, ← same] at lower'
    obtain rfl := Except.ok.inj (way'.symm.trans lower')
    have file : w.isFile ".chainlint.toml" = true :=
      Workspace.isFile_iff.mpr ⟨_, c,
        (Workspace.names_of_name nonempty hiddenName_isName _).mpr ⟨_, inside, rfl, there⟩, reached⟩
    rw [hidden] at file
    cases file
  have third : (globalDirectory.map (Path.append · ConfigSource.globalName)).filter w.isFile = none := by
    cases globalDirectory with
    | none => rfl
    | some dir => simp [Option.filter_some, noGlobal dir rfl]
  have own' : w'.isFile (Path.append path "chainlint.toml") = true :=
    Workspace.isFile_iff.mpr ⟨_, content, found, gains.present⟩
  constructor
  · rw [ConfigSource.resolve_none, own, second, third]
    rfl
  · rw [ConfigSource.resolve_none, if_pos own', templateName]

end

/-! ### Discovery and checks beside a new file -/

end CommandLine

namespace FileTree

/-- Files are found where the root leads somewhere and, if that is a directory, no ignore file above it is
wrong. -/
theorem discovers_iff {git : Bool} {t : FileTree} {root : String} :
    (∃ found, t.discover git root = .ok found) ↔ ∃ top node, t.names root = .ok top ∧
      t.node? top = some node ∧ (node.isDirectory = true → complaintsAbove git "/" t top = []) := by
  constructor
  · rintro ⟨found, discovered⟩
    obtain ⟨-, top, node, way, reached, -⟩ := discover_eq_ok discovered
    refine ⟨top, node, way, reached, fun isDirectory => ?_⟩
    cases node with
    | file content => cases isDirectory
    | directory es =>
      rw [discover, way] at discovered
      simp only [reached] at discovered
      split at discovered
      · assumption
      · cases discovered
  · rintro ⟨top, node, way, reached, calm⟩
    rw [discover, way]
    cases node with
    | file content => exact ⟨_, by simp only [reached]; rfl⟩
    | directory es => exact ⟨_, by simp only [reached, calm rfl]; rfl⟩

/-- A new file that is no ignore file changes what can be discovered only for a root that leads to it. -/
theorem discovers_gained {keep : String → Bool} (ignore : KeepsIgnoreFiles keep) {t t' : FileTree}
    (proper : t.Proper) (proper' : t'.Proper) (same : t'.keeping keep = t.keeping keep)
    {place : List String} {content : Content} (gains : t.Gains t' place content) {git : Bool}
    {root : String} (elsewhere : t'.names root ≠ .ok place) :
    (∃ found, t'.discover git root = .ok found) ↔ ∃ found, t.discover git root = .ok found := by
  rw [discovers_iff, discovers_iff]
  have complaints {top : List String} {node node' : FileTree} (reached : t.node? top = some node)
      (reached' : t'.node? top = some node') :
      complaintsAbove git "/" t' top = complaintsAbove git "/" t top := by
    rw [← complaintsAbove_keeping ignore proper git "/" reached,
      ← complaintsAbove_keeping ignore proper' git "/" reached', same]
  have kind {top : List String} {node node' : FileTree} (reached : t.node? top = some node)
      (reached' : t'.node? top = some node') : node'.isDirectory = node.isDirectory := by
    cases node with
    | file content =>
      rw [gains.within.file top content reached] at reached'
      rw [← Option.some.inj reached']
    | directory es =>
      obtain ⟨es', there⟩ := (gains.within.directory top).mp ⟨es, reached⟩
      rw [there] at reached'
      rw [← Option.some.inj reached']
      rfl
  constructor
  · rintro ⟨top, node', way', reached', calm⟩
    have known : (t.node? top).isSome = true := by
      rcases gains.only top (by simp [reached']) with known | atPlace
      · exact known
      · exact absurd (atPlace ▸ way') elsewhere
    obtain ⟨node, reached⟩ := Option.isSome_iff_exists.mp known
    refine ⟨top, node, (gains.within.names_iff root top).mpr ⟨way', known⟩, reached, ?_⟩
    rwa [← complaints reached reached', ← kind reached reached']
  · rintro ⟨top, node, way, reached, calm⟩
    obtain ⟨way', known⟩ := (gains.within.names_iff root top).mp way
    obtain ⟨node', reached'⟩ := Option.isSome_iff_exists.mp (gains.within.isSome known)
    refine ⟨top, node', way', reached', ?_⟩
    rwa [complaints reached reached', kind reached reached']

end FileTree

namespace CommandLine

/-- Both fail, or both come to that report. -/
def SameReport (a b : Except Failure Report) : Prop :=
  (∃ e e', a = .error e ∧ b = .error e') ∨ ∃ report, a = .ok report ∧ b = .ok report

/-- A check is not changed by a new file that it does not read and whose path is not its own. -/
theorem checkWith_gained {w w' : Workspace} (alike : SeesAlike w w') {place : List String}
    {content : Content} (gains : w.files.Gains w'.files place content) {path : String}
    (elsewhere : w'.files.names (w'.absolute path) ≠ .ok place) (config : Config)
    (names : Option (List String)) (excludes : List String) :
    SameReport (checkWith w config path names excludes) (checkWith w' config path names excludes) := by
  have root : w'.absolute path = w.absolute path := by
    rw [Workspace.absolute, Workspace.absolute, alike.directory]
  have both : (∃ found, w'.files.discover config.scope.respectGitignore (w'.absolute path) = .ok found) ↔
      ∃ found, w.files.discover config.scope.respectGitignore (w'.absolute path) = .ok found :=
    FileTree.discovers_gained keepsIgnoreFiles_mayRead alike.proper alike.proper' alike.files gains elsewhere
  rw [root] at both
  by_cases found : ∃ found, w.files.discover config.scope.respectGitignore (w.absolute path) = .ok found
  · obtain ⟨_, discovered'⟩ := both.mpr found
    obtain ⟨_, discovered⟩ := found
    rw [checkWith_seesAlike alike discovered discovered' names excludes]
    cases outcome : checkWith w config path names excludes with
    | error e => exact .inl ⟨e, e, rfl, rfl⟩
    | ok report => exact .inr ⟨report, rfl, rfl⟩
  · left
    cases outcome : checkWith w config path names excludes with
    | ok report => exact absurd (discovered_of_checkWith outcome) found
    | error e =>
      cases outcome' : checkWith w' config path names excludes with
      | ok report => exact absurd (both.mp (root ▸ discovered_of_checkWith outcome')) found
      | error e' => exact ⟨e, e', rfl, rfl⟩

/-! ### Runs before and after -/

/-- The exit status and the standard output of a check. -/
def shown (format : OutputFormat) : Except Failure (Config × Report) → Nat × String
  | .error _ => (failed, "")
  | .ok (config, report) =>
    (if report.hasAtLeast config.threshold then failed else 0, report.render format)

theorem run_shown {s : Surroundings} {args : List String} {path : String} {format : OutputFormat}
    {names : Option (List String)} {excludes : List String} {given : Option String}
    (asked : parse args = .ok ⟨.check path format names excludes, given⟩) :
    ((run s args).status, (run s args).stdout) = shown format (check s given path names excludes) := by
  rw [run, asked]
  cases outcome : check s given path names excludes with
  | error f => simp [perform, outcome, shown, failure]
  | ok result => simp [perform, outcome, shown]

/-- What is shown depends on the settings by their threshold and by the report they lead to. -/
theorem shown_of_sameReport {a b : Except Failure Report} (same : SameReport a b) {config config' : Config}
    (threshold : config'.threshold = config.threshold) (format : OutputFormat) :
    shown format (b.map (config', ·)) = shown format (a.map (config, ·)) := by
  rcases same with ⟨e, e', rfl, rfl⟩ | ⟨report, rfl, rfl⟩
  · rfl
  · simp [shown, Except.map, threshold]

section

variable {s : Surroundings} {here : List String} {es : List (String × FileTree)}
  (proper : s.workspace.files.Proper)
  (inside : s.workspace.files.names s.workspace.directory = .ok here)
  (directory : s.workspace.files.node? here = some (.directory es))
  (fresh : s.workspace.node? templateName = none)

include inside

theorem directory_nonempty : s.workspace.directory ≠ "" := by
  intro empty
  rw [empty] at inside
  cases inside

/-- The settings are looked for where they are written. -/
theorem node_template : s.workspace.node? templateName =
    s.workspace.files.node? (here ++ [templateName]) := by
  ext node
  have way := Workspace.names_of_name (directory_nonempty inside) templateName_isName
  rw [Workspace.node_eq_some]
  constructor
  · rintro ⟨top, named, reached⟩
    obtain ⟨here', inside', rfl, -⟩ := (way top).mp named
    obtain rfl := Except.ok.inj (inside.symm.trans inside')
    exact reached
  · intro reached
    exact ⟨_, (way _).mpr ⟨here, inside, rfl, by rw [reached]; rfl⟩, reached⟩

include fresh

theorem place_fresh : s.workspace.files.node? (here ++ [templateName]) = none := by
  rw [← node_template inside, fresh]

/-- Where there are no settings, they are written into the working directory. -/
theorem run_init {args : List String} {force : Bool} {given : Option String}
    (asked : parse args = .ok ⟨.init force, given⟩) :
    (run s args).status = 0 ∧ (run s args).workspace =
      { s.workspace with
        files := s.workspace.files.graft (here ++ [templateName]) (.file (.text template)) } := by
  have written : s.workspace.write templateName template = .ok
      { s.workspace with
        files := s.workspace.files.graft (here ++ [templateName]) (.file (.text template)) } := by
    simp [Workspace.write, inside, place_fresh inside fresh, bind, Except.bind, pure, Except.pure]
  simp [run, asked, perform, initialise, fresh, written]

include proper directory

theorem seesAlike_after : SeesAlike s.workspace
    { s.workspace with
      files := s.workspace.files.graft (here ++ [templateName]) (.file (.text template)) } where
  directory := rfl
  proper := proper
  proper' := FileTree.graft_proper proper templateName_isName directory
  files := FileTree.graft_keeping directory (place_fresh inside fresh) (by decide)

end

theorem template_runsAlike : ({} : Config).RunsAlike templateConfig where
  scope := templateConfig_default.1
  configured := templateConfig_default.2.2.1
  enabled name := (templateConfig_default.2.2.2 name).1
  severity name := (templateConfig_default.2.2.2 name).2

theorem shown_after {s s' : Surroundings} {here : List String}
    (alike : SeesAlike s.workspace s'.workspace) (settings : s'.globalDirectory = s.globalDirectory)
    (inside : s.workspace.files.names s.workspace.directory = .ok here)
    (gains : s.workspace.files.Gains s'.workspace.files (here ++ [templateName]) (.text template))
    (hidden : s.workspace.isFile ".chainlint.toml" = false)
    (noGlobal : ∀ dir, s.globalDirectory = some dir →
      s.workspace.isFile (Path.append dir ConfigSource.globalName) = false) {path : String}
    (elsewhere : s'.workspace.files.names (s'.workspace.absolute path) ≠ .ok (here ++ [templateName]))
    (format : OutputFormat) (names : Option (List String)) (excludes : List String) :
    shown format (check s' none path names excludes) = shown format (check s none path names excludes) := by
  have nonempty := directory_nonempty inside
  have same := checkWith_gained alike gains elsewhere
  rw [check, check, settings]
  by_cases found : s'.workspace.names (Path.append path templateName) = .ok (here ++ [templateName])
  · -- Nothing was said before, and what is said now is nothing else.
    obtain ⟨before, after⟩ := resolve_here alike.directory nonempty gains inside hidden noGlobal found
    have read : s'.workspace.read (Path.append path templateName) = .ok template :=
      Workspace.read_of_node found gains.present
    have loaded : Config.load s'.workspace (Path.append path templateName) = .ok templateConfig := by
      rw [Config.load, read]
      exact parse_template
    have threshold : templateConfig.threshold = ({} : Config).threshold := by
      rw [Config.threshold, templateConfig_default.2.1]
      rfl
    simp only [before, after, Config.ofSource, ConfigSource.path?, loaded]
    rw [checkWith_runsAlike _ template_runsAlike]
    exact shown_of_sameReport (same {} names excludes) threshold format
  · rw [resolve_elsewhere alike.directory nonempty gains found]
    simp only [ofSource_unchanged alike.directory gains]
    cases Config.ofSource s.workspace
        (ConfigSource.resolve s.workspace path none s.globalDirectory) with
    | error e => rfl
    | ok config => exact shown_of_sameReport (same config names excludes) rfl format

/-- A project that has no settings of its own and no global ones is checked with the same exit status and
the same output before and after it is given the settings to begin with, unless the path of the check
leads to the file that holds these. They are read as settings that agree with the defaults in the files,
the rules with their options, the severities, and the threshold. -/
theorem init_preserves_checks {s : Surroundings} (proper : s.workspace.files.Proper)
    {here : List String} {es : List (String × FileTree)}
    (inside : s.workspace.files.names s.workspace.directory = .ok here)
    (directory : s.workspace.files.node? here = some (.directory es))
    (fresh : s.workspace.node? templateName = none)
    (hidden : s.workspace.isFile ".chainlint.toml" = false)
    (noGlobal : ∀ dir, s.globalDirectory = some dir →
      s.workspace.isFile (Path.append dir ConfigSource.globalName) = false)
    {initArgs : List String} {force : Bool} {given : Option String}
    (initialises : parse initArgs = .ok ⟨.init force, given⟩) {after : Surroundings}
    (left : after = { s with workspace := (run s initArgs).workspace }) {args : List String}
    {path : String} {format : OutputFormat} {names : Option (List String)} {excludes : List String}
    (asked : parse args = .ok ⟨.check path format names excludes, none⟩)
    (elsewhere : after.workspace.files.names (after.workspace.absolute path) ≠
      after.workspace.names templateName) :
    (run s initArgs).status = 0 ∧ after.workspace.read templateName = .ok template ∧
      (run after args).status = (run s args).status ∧ (run after args).stdout = (run s args).stdout ∧
      ∃ config, Config.parse template = .ok config ∧ config.scope = .default ∧ config.failOn = none ∧
        Rule.configured config = Rule.configured {} ∧
        ∀ name, config.isEnabled name = ({} : Config).isEnabled name ∧
          config.severity? name = ({} : Config).severity? name := by
  obtain ⟨status, workspace⟩ := run_init inside fresh initialises
  have files : after.workspace = { s.workspace with
      files := s.workspace.files.graft (here ++ [templateName]) (.file (.text template)) } := by
    rw [left, ← workspace]
  have settings : after.globalDirectory = s.globalDirectory := by rw [left]
  have alike : SeesAlike s.workspace after.workspace := by
    rw [files]
    exact seesAlike_after proper inside directory fresh
  have gains : s.workspace.files.Gains after.workspace.files (here ++ [templateName]) (.text template) := by
    rw [files]
    exact FileTree.graft_gains directory (place_fresh inside fresh)
  have named := names_of_new alike.directory (directory_nonempty inside) gains inside
  rw [named] at elsewhere
  have same := shown_after alike settings inside gains hidden noGlobal elsewhere format names excludes
  rw [← run_shown asked, ← run_shown asked, Prod.mk.injEq] at same
  exact ⟨status, Workspace.read_of_node named gains.present, same.1, same.2, templateConfig,
    parse_template, templateConfig_default⟩

/-- A project without any file. -/
def emptyProject : Surroundings where
  workspace := { directory := "/w", files := .directory [("w", .directory [])] }
  globalDirectory := none

def initialisedProject : Surroundings := { emptyProject with workspace := (run emptyProject ["init"]).workspace }

theorem emptyProject_inside : emptyProject.workspace.files.names "/w" = .ok ["w"] := by decide

theorem emptyProject_fresh : emptyProject.workspace.node? templateName = none :=
  Option.isNone_iff_eq_none.mp (by decide)

theorem init_asked : parse ["init"] = .ok ⟨.init false, none⟩ := by decide

theorem init_preserves_checks_of_empty :
    (run emptyProject ["init"]).status = 0 ∧
      (run initialisedProject ["check"]).status = (run emptyProject ["check"]).status ∧
      (run initialisedProject ["check"]).stdout = (run emptyProject ["check"]).stdout := by
  have proper : emptyProject.workspace.files.Proper := by
    have name : IsName "w" := by constructor <;> decide
    simp [emptyProject, FileTree.Proper, FileTree.ProperEntries, name]
  obtain ⟨status, -, same, same', -⟩ := init_preserves_checks proper emptyProject_inside rfl
    emptyProject_fresh (by decide) (fun dir found => by cases found) init_asked rfl check_asked
    (by decide)
  exact ⟨status, same, same'⟩

/-- The path of the new file itself leads nowhere before, which ends the check, and to a file that is not
checked afterwards. -/
theorem init_changes_check_of_new_file :
    emptyProject.workspace.node? templateName = none ∧
      emptyProject.workspace.isFile ".chainlint.toml" = false ∧ emptyProject.globalDirectory = none ∧
      parse ["init"] = .ok ⟨.init false, none⟩ ∧
      parse ["check", "chainlint.toml"] = .ok ⟨.check "chainlint.toml" .text none [], none⟩ ∧
      (run emptyProject ["check", "chainlint.toml"]).status = 1 ∧
      (run initialisedProject ["check", "chainlint.toml"]).status = 0 := by
  have asked : parse ["check", "chainlint.toml"] =
      .ok ⟨.check "chainlint.toml" .text none [], none⟩ := by decide
  refine ⟨emptyProject_fresh, by decide, rfl, init_asked, asked, by decide, ?_⟩
  have unset : ConfigSource.resolve initialisedProject.workspace "chainlint.toml" none none = .default := by
    decide
  have accepted : (Analyzer.parseExclusions Scope.default.exclude).isOk = true := by decide
  have unhandled : Go.language.handles "/w/chainlint.toml" = false := by decide
  cases patterns : Analyzer.parseExclusions Scope.default.exclude with
  | error e =>
    rw [patterns] at accepted
    cases accepted
  | ok exclusions =>
    have checked : checkWith initialisedProject.workspace {} "chainlint.toml" none [] = .ok ⟨[], 0⟩ :=
      checkWith_of_steps exclusions [("/w/chainlint.toml", .text template)] [] patterns
        (by decide +kernel) (by simp [unhandled]) List.Pairwise.nil rfl List.Pairwise.nil
    have outcome : check initialisedProject none "chainlint.toml" none [] = .ok ({}, ⟨[], 0⟩) := by
      rw [check, show initialisedProject.globalDirectory = none from rfl]
      simp [unset, Config.ofSource, ConfigSource.path?, checked, Except.map]
    exact (status_iff asked outcome).2.mpr rfl

end CommandLine

end SwitchLint
