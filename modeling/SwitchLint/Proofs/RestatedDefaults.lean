import SwitchLint.Proofs.ConfiguredRoot
import SwitchLint.Proofs.FurtherLines
import SwitchLint.Proofs.NamedExclusions
import SwitchLint.Proofs.Planning

/-!
Settings that restate what holds without them. A table on which files are looked at may be put behind
settings that have none; what it sets to the values that hold anyway stays as it was. But the patterns that
hold where there is no such table do not hold where there is one.
-/

namespace SwitchLint

open Toml Grammar Scan

/-- A setting, with the value that it has by itself. -/
inductive Restated where
  | root
  | respectGitignore
  deriving DecidableEq, Repr

namespace Restated

def name : Restated → String
  | root => "root"
  | respectGitignore => "respect_gitignore"

def line : Restated → String
  | root => "root = \".\""
  | respectGitignore => "respect_gitignore = true"

/-- The text with a table behind it that restates the settings. -/
def table (text : String) (settings : List Restated) : String :=
  text ++ String.ofList ('\n' :: textOf ("[analyzer]" :: settings.map line))

end Restated

namespace Toml

theorem entry_root (rest : List Char) (off : Nat) : entryLine ⟨"root = \".\"".toList ++ '\n' :: rest, off⟩ =
    .ok (([], ⟨"root", ⟨off, off + 4⟩⟩, .string "." ⟨off + 7, off + 10⟩), ⟨rest, off + 11⟩) := by
  cbv

/-- A header in single brackets, to the end of the line. -/
def headerLine : Scan (List Key × Extent) := do
  let (path, extent) ← located do
    char '['
    let path ← cut key
    wants [.spelled ".", .spelled "]"] (cut (char ']'))
    return path
  cut endOfLine
  return (path, extent)

theorem headerLine_analyzer (rest : List Char) (off : Nat) :
    headerLine ⟨"[analyzer]".toList ++ '\n' :: rest, off⟩ =
      .ok (([⟨"analyzer", ⟨off + 1, off + 9⟩⟩], ⟨off, off + 10⟩), ⟨rest, off + 11⟩) := by
  cbv

theorem header_of_beginTable {d d' : Draft} {rest : List Char} {off : Nat}
    (begun : d.beginTable [⟨"analyzer", ⟨off + 1, off + 9⟩⟩] ⟨off, off + 10⟩ = .ok d') :
    header d ⟨"[analyzer]".toList ++ '\n' :: rest, off⟩ = .ok (d', ⟨rest, off + 11⟩) := by
  have run : checked headerLine (fun (path, extent) => d.beginTable path extent)
      ⟨"[analyzer]".toList ++ '\n' :: rest, off⟩ = .ok (d', ⟨rest, off + 11⟩) := by
    refine bind_eq_ok.mpr ⟨off, _, rfl, bind_eq_ok.mpr ⟨_, _, headerLine_analyzer rest off, ?_⟩⟩
    simp only [begun]
    rfl
  have text : "[analyzer]".toList = '[' :: 'a' :: "nalyzer]".toList := by decide
  rw [text] at run ⊢
  exact label_eq_ok.mpr (bind_eq_ok.mpr ⟨_, _, rfl, run⟩)

/-! ### The table behind a document -/

theorem get?_eq_none_iff (es : Entries) (name : String) :
    es.get? name = none ↔ ∀ e ∈ es, e.1.name ≠ name := by
  rw [Entries.get?, Option.map_eq_none_iff, List.find?_eq_none]
  simp only [beq_iff_eq, ne_eq]

theorem set_of_fresh {es : Entries} {key : Key} (fresh : es.get? key.name = none) (item : Item) :
    es.set key item = es ++ [(key, item)] := by
  have none : (List.any es fun e => e.1.name == key.name) = false := by
    rw [List.any_eq_false]
    simpa using (get?_eq_none_iff es key.name).mp fresh
  rw [Entries.set, none]
  rfl

theorem beginTable_of_fresh {d finished : Draft} (finish : d.finish = .ok finished) {key : Key}
    (fresh : finished.root.get? key.name = none) (extent : Extent) : d.beginTable [key] extent =
      .ok { root := finished.root, path := [key], head := { extent := some extent } } := by
  have parent (f : Key → Entries → Except Cause Entries) (same : f key finished.root = .ok finished.root) :
      Draft.atParent finished.root [key] f = .ok finished.root := by
    simp only [Draft.atParent, List.getLast?_singleton, List.dropLast_singleton, updateAt, same]
    rfl
  have none : Draft.inherited finished.root [key] = [] := by
    simp [Draft.inherited, Draft.entriesAt, fresh]
  rw [Draft.beginTable, finish]
  simp only [bind, Except.bind, none, pure, Except.pure]
  rw [parent _ (by simp only [fresh])]

theorem finish_of_fresh {root entries : Entries} {key : Key} (head : TableHead)
    (fresh : root.get? key.name = none) : Draft.finish { root, path := [key], head, entries } =
      .ok { root := root ++ [(key, .table head entries)] } := by
  rw [← set_of_fresh fresh]
  simp [Draft.finish, Draft.atParent, updateAt, fresh, bind, Except.bind, pure, Except.pure]

end Toml

namespace Config

theorem scope_of_setConfig {c c' : Config} {key : String} {item : Item}
    (set : setConfig c key item = .ok c') (other : key ≠ "analyzer") : c'.scope = c.scope := by
  unfold setConfig at set
  split at set
  · obtain ⟨s, -, made⟩ := CommandLine.bind_eq_ok_iff.mp set
    rw [← Except.ok.inj made]
  · exact absurd rfl other
  · obtain ⟨s, -, made⟩ := CommandLine.bind_eq_ok_iff.mp set
    rw [← Except.ok.inj made]
  · rw [← Except.ok.inj set]

theorem orAt_eq_ok {α : Type} {extent : Option Extent} {r : Decoded α} {a : α} :
    orAt extent r = .ok a ↔ r = .ok a := by
  cases r <;> simp [orAt]

theorem foldEntries_concat {σ : Type} {set : σ → String → Item → Decoded σ} {s s₁ s₂ : σ} {es : Entries}
    {key : Key} {item : Item} (first : foldEntries set s es = .ok s₁)
    (last : set s₁ key.name item = .ok s₂) : foldEntries set s (es ++ [(key, item)]) = .ok s₂ := by
  rw [foldEntries, List.foldlM_append]
  refine CommandLine.bind_eq_ok_iff.mpr ⟨s₁, first, ?_⟩
  rw [List.foldlM_cons]
  exact CommandLine.bind_eq_ok_iff.mpr ⟨s₂, orAt_eq_ok.mpr (orAt_eq_ok.mpr last), rfl⟩

/-- Settings without the table hold what holds by itself. -/
theorem scope_of_fresh {es : Entries} {c config : Config} (read : foldEntries setConfig c es = .ok config)
    (fresh : es.get? "analyzer" = none) : config.scope = c.scope := by
  rw [get?_eq_none_iff] at fresh
  induction es generalizing c with
  | nil =>
    cases read
    rfl
  | cons e es ih =>
    obtain ⟨own, others⟩ := List.forall_mem_cons.mp fresh
    rw [foldEntries, List.foldlM_cons] at read
    obtain ⟨c₁, first, rest⟩ := CommandLine.bind_eq_ok_iff.mp read
    rw [ih rest others]
    exact scope_of_setConfig (orAt_eq_ok.mp (orAt_eq_ok.mp first)) own

/-- The draft stands in the table behind the entries, and what the table holds says what holds anyway. -/
def Restates (entries : Entries) (d : Toml.Draft) : Prop :=
  ∃ key head own, d = { root := entries, path := [key], head, entries := own } ∧ key.name = "analyzer" ∧
    foldEntries setScope emptyScope own = .ok emptyScope

end Config

namespace Restated

open Config

theorem line_read (setting : Restated) (rest : List Char) (off : Nat) : ∃ key item off',
    entryLine ⟨setting.line.toList ++ '\n' :: rest, off⟩ = .ok (([], key, item), ⟨rest, off'⟩) ∧
      key.name = setting.name ∧ setScope emptyScope key.name item = .ok emptyScope := by
  cases setting with
  | root => exact ⟨_, _, _, entry_root rest off, rfl, rfl⟩
  | respectGitignore => exact ⟨_, _, _, entry_gitignore rest off, rfl, rfl⟩

theorem name_injective {setting setting' : Restated} (same : setting.name = setting'.name) :
    setting = setting' := by
  cases setting <;> cases setting' <;> first | rfl | exact absurd same (by decide)

theorem line_head (setting : Restated) : setting.line.toList.head? = some 'r' := by
  cases setting <;> decide

theorem line_unindented (setting : Restated) : unindented setting.line = true := by
  cases setting <;> decide

theorem unblank_lines (settings : List Restated) : Unblank (textOf (settings.map line)) := by
  cases settings with
  | nil => exact unblank_nil
  | cons setting settings => exact unblank_of_unindented setting.line_unindented _

/-- In the table each setting adds an entry that says what holds anyway. -/
theorem ends_settings {entries own : Entries} {settings : List Restated} {key : Key} {head : TableHead}
    (named : key.name = "analyzer") (plain : head.dotted = false)
    (idle : foldEntries setScope emptyScope own = .ok emptyScope) (once : settings.Nodup)
    (fresh : ∀ setting ∈ settings, own.get? setting.name = none) :
    Ends (Restates entries) { root := entries, path := [key], head, entries := own }
      (textOf (settings.map line)) := by
  induction settings generalizing head own with
  | nil => exact ends_here ⟨key, head, own, rfl, named, idle⟩
  | cons setting settings ih =>
    obtain ⟨others, once⟩ := List.nodup_cons.mp once
    obtain ⟨absent, fresh⟩ := List.forall_mem_cons.mp fresh
    rw [List.map_cons, textOf_cons]
    apply ends_entry 'r' _ (by decide) (unblank_lines settings) (shorter_behind _ _) plain
    · intro off
      obtain ⟨key', item, off', read, same, set⟩ := setting.line_read (textOf (settings.map line)) off
      refine ⟨key', item, off', read, same ▸ absent, ?_⟩
      apply ih
      · exact plain
      · exact foldEntries_concat idle set
      · exact once
      · intro other member
        rw [get?_eq_none_iff]
        intro e there
        rcases List.mem_append.mp there with there | there
        · exact (get?_eq_none_iff own other.name).mp (fresh other member) e there
        · rw [List.mem_singleton.mp there]
          intro clash
          exact others (name_injective (same.symm.trans clash) ▸ member)
    · rw [List.head?_append, setting.line_head]
      rfl

theorem ends_table {entries : Entries} {d finished : Toml.Draft} (finish : d.finish = .ok finished)
    (root : finished.root = entries) (absent : entries.get? "analyzer" = none) {settings : List Restated}
    (once : settings.Nodup) :
    Ends (Restates entries) d (textOf ("[analyzer]" :: settings.map line)) := by
  rw [textOf_cons]
  apply ends_header (by cbv) (unblank_lines settings) (shorter_behind _ _)
  intro off
  refine ⟨_, _, header_of_beginTable (beginTable_of_fresh finish (root ▸ absent) _), ?_⟩
  rw [root]
  exact ends_settings rfl rfl rfl once fun _ _ => rfl

/-- A document that sets nothing of the table is read with one more entry, the table. -/
theorem parse_table {text : String} {entries : Entries} (parsed : Toml.parse text = .ok entries)
    (absent : entries.get? "analyzer" = none) {settings : List Restated} (once : settings.Nodup) :
    ∃ key head own, key.name = "analyzer" ∧ foldEntries setScope emptyScope own = .ok emptyScope ∧
      Toml.parse (table text settings) = .ok (entries ++ [(key, .table head own)]) := by
  obtain ⟨d, finished, finish, root, further⟩ := parse_further parsed
  have unblank : Unblank (textOf ("[analyzer]" :: settings.map line)) := unblank_of_unindented (by decide) _
  obtain ⟨d', ⟨key, head, own, rfl, named, idle⟩, read⟩ :=
    further _ _ unblank (ends_table finish root absent once)
  exact ⟨key, head, own, named, idle, read _ (finish_of_fresh head (named ▸ absent))⟩

end Restated

namespace Config

variable {text : String} {entries : Entries} {config : Config} {settings : List Restated}

/-- The table changes one setting, though it does not name it: there are no patterns any more. -/
theorem parse_restated (parsed : Toml.parse text = .ok entries) (absent : entries.get? "analyzer" = none)
    (read : parse text = .ok config) (once : settings.Nodup) :
    config.scope = .default ∧ parse (Restated.table text settings) = .ok config.withoutPatterns := by
  have own : ofEntries entries = .ok config := by
    rw [parse, parsed] at read
    cases own : ofEntries entries with
    | error m => simp [own] at read
    | ok c => simpa [own] using read
  obtain ⟨key, head, inner, named, idle, parsed'⟩ := Restated.parse_table parsed absent once
  have scope : config.scope = .default := scope_of_fresh own absent
  refine ⟨scope, ?_⟩
  have whole : ofEntries (entries ++ [(key, .table head inner)]) = .ok config.withoutPatterns := by
    apply foldEntries_concat own
    rw [named, withoutPatterns, scope]
    apply CommandLine.bind_eq_ok_iff.mpr
    exact ⟨emptyScope, idle, rfl⟩
  rw [parse, parsed']
  simp only [whole]

end Config

/-! ### What is checked without the patterns -/

namespace Path

/-- Does the path, seen from the root, lead through a directory of one of the names? -/
def leadsThrough (names : List String) (root path : String) : Bool :=
  (components (relativeTo root path)).dropLast.any fun c => names.any fun name => c == .normal name.toList

theorem leadsThrough_iff (names : List String) {root : String} (nonempty : root ≠ "") {place : List String}
    (proper : ∀ name ∈ place, IsName name) :
    leadsThrough names root (place.foldl append root) = true ↔ ∃ name ∈ names, name ∈ place.dropLast := by
  rw [leadsThrough, components_relativeTo_below nonempty proper, ← List.map_dropLast]
  simp only [List.any_eq_true, List.mem_map, beq_iff_eq]
  constructor
  · rintro ⟨_, ⟨own, member, rfl⟩, name, named, same⟩
    obtain rfl : own = name := String.toList_inj.mp (Component.normal.inj same)
    exact ⟨own, named, member⟩
  · rintro ⟨name, named, member⟩
    exact ⟨_, ⟨name, member, rfl⟩, name, named, rfl⟩

end Path

namespace Analyzer

/-- The names of the directories that are left out by the patterns that hold by themselves. -/
def asideByDefault : List String := ["vendor", "testdata"]

/-- The analyzer with other patterns, and none in its settings. -/
def withPatterns (a : Analyzer) (es : List Exclusion) : Analyzer :=
  { a with exclusions := es, config := a.config.withoutPatterns }

variable (a : Analyzer)

theorem parseExclusions_append {texts texts' : List String} {es' : List Exclusion}
    (read : parseExclusions texts' = .ok es') :
    parseExclusions (texts ++ texts') = (parseExclusions texts).map (· ++ es') := by
  rw [parseExclusions, parseExclusions, List.mapM_append, ← parseExclusions, ← parseExclusions, read]
  cases parseExclusions texts <;> rfl

namespace Plan

/-- The plan, with those settings. -/
def under (p : Plan) (config : Config) : Plan := { p with config := some config }

theorem build_under (p : Plan) (config : Config) (directory : String) : (p.under config).build directory =
    match p.language with
    | none => .error .noLanguage
    | some language => (parseExclusions (p.excludes ++ config.scope.exclude)).map fun exclusions =>
        { root := (p.under config).rootFrom directory
          rules := p.rules
          language, exclusions, config
          failOnParseError := p.failOnParseError } := by
  rw [build, under]
  cases p.language with
  | none => rfl
  | some language =>
    change (parseExclusions (p.excludes ++ config.scope.exclude) >>= fun es => _) = _
    cases parseExclusions (p.excludes ++ config.scope.exclude) <;> rfl

variable (p : Plan) {config : Config} (scope : config.scope = .default) {own : List Exclusion}
  (read : parseExclusions Scope.default.exclude = .ok own) (directory : String)
include scope read

/-- Without the patterns of its settings a plan fails for the same reasons, and comes to the same but for
those patterns. -/
theorem build_withoutPatterns :
    (∀ e, (p.under config.withoutPatterns).build directory = .error e ↔
      (p.under config).build directory = .error e) ∧
    ∀ a b, (p.under config).build directory = .ok a →
      (p.under config.withoutPatterns).build directory = .ok b →
        a.config = config ∧ ∃ es, a.exclusions = es ++ own ∧ b = a.withPatterns es := by
  have without : config.withoutPatterns.scope.exclude = [] := rfl
  rw [build_under, build_under, without, List.append_nil, scope, parseExclusions_append read]
  cases p.language with
  | none => exact ⟨fun e => Iff.rfl, nofun⟩
  | some language =>
    cases parseExclusions p.excludes with
    | error e => exact ⟨fun e => Iff.rfl, nofun⟩
    | ok es =>
      refine ⟨fun e => ⟨nofun, nofun⟩, fun a b made made' => ?_⟩
      cases made
      cases made'
      exact ⟨rfl, es, rfl, rfl⟩

end Plan

variable {own : List Exclusion} (read : parseExclusions Scope.default.exclude = .ok own)
  {es : List Exclusion} (exclusions : a.exclusions = es ++ own)
include read exclusions

/-- What the analyzer selects is what it selects without the patterns of its settings, but for what lies
in the directories that these leave out. -/
theorem select_aside {tree : FileTree} (proper : tree.Proper) {git : Bool} {found : List (String × Content)}
    (discovered : tree.discover git a.root = .ok found) : a.select found =
      ((a.withPatterns es).select found).filter fun f => !Path.leadsThrough asideByDefault a.root f.1 := by
  obtain ⟨nonempty, files, whole, -, names⟩ := FileTree.discover_places proper discovered
  rw [select_eq_filter, select_eq_filter, List.filter_filter]
  apply List.filter_congr
  intro f member
  obtain ⟨g, there, rfl⟩ := List.mem_map.mp (whole ▸ List.mem_mergeSort.mp member)
  obtain ⟨own', read', out⟩ := excluded_by_default_iff a.root (names g there)
  cases read.symm.trans read'
  have aside : excluded own a.root (g.1.foldl Path.append a.root) =
      Path.leadsThrough asideByDefault a.root (g.1.foldl Path.append a.root) := by
    rw [Bool.eq_iff_iff, out, Path.leadsThrough_iff _ nonempty (names g there)]
    simp [asideByDefault]
  simp only [selects, withPatterns, exclusions, excluded, List.any_append] at aside ⊢
  rw [aside, Bool.not_or, ← Bool.and_assoc, Bool.and_comm]

/-- Without the patterns of the settings so many more files are counted as lie in the directories that these
leave out and are accepted. -/
theorem filesChecked_aside {tree : FileTree} (proper : tree.Proper) {r r' : Report}
    (done : a.analyze tree = .ok r) (done' : (a.withPatterns es).analyze tree = .ok r') :
    ∃ found, tree.discover a.config.scope.respectGitignore a.root = .ok found ∧
      r'.filesChecked = r.filesChecked + (((a.withPatterns es).select found).filter fun f =>
        Path.leadsThrough asideByDefault a.root f.1).countP a.accepts := by
  obtain ⟨found, discovered, count⟩ := filesChecked_eq done
  obtain ⟨found', discovered', count'⟩ := filesChecked_eq done'
  obtain rfl : found' = found := Except.ok.inj (discovered'.symm.trans discovered)
  refine ⟨found', discovered, ?_⟩
  have accepts : (a.withPatterns es).accepts = a.accepts := rfl
  rw [count, count', accepts, select_aside a read exclusions proper discovered]
  rw [List.countP_eq_countP_filter_add _ a.accepts fun f => Path.leadsThrough asideByDefault a.root f.1]
  rw [Nat.add_comm]

end Analyzer

namespace Config

/-- A table behind settings that have none, restating what holds by itself, changes the settings: there are
no patterns any more. So a check comes to the same where no file to be checked lies in a directory that
those patterns leave out; the files that do are all that is selected besides. -/
theorem restated_settings {text : String} {entries : Entries} {config : Config} {settings : List Restated}
    (parsed : Toml.parse text = .ok entries) (absent : entries.get? "analyzer" = none)
    (read : parse text = .ok config) (once : settings.Nodup) :
    config.scope = .default ∧ parse (Restated.table text settings) = .ok config.withoutPatterns ∧
    ∀ (plan : Analyzer.Plan) (directory : String),
      (∀ e, (plan.under config.withoutPatterns).build directory = .error e ↔
        (plan.under config).build directory = .error e) ∧
      ∀ a b, (plan.under config).build directory = .ok a →
        (plan.under config.withoutPatterns).build directory = .ok b →
          ∀ tree : FileTree, tree.Proper →
            (∀ found, tree.discover true a.root = .ok found → a.select found =
              (b.select found).filter fun f => !Path.leadsThrough ["vendor", "testdata"] a.root f.1) ∧
            ((∀ found, tree.discover true a.root = .ok found →
              ∀ f ∈ b.select found, Path.leadsThrough ["vendor", "testdata"] a.root f.1 = false) →
                b.analyze tree = a.analyze tree) ∧
            ∀ r r', a.analyze tree = .ok r → b.analyze tree = .ok r' →
              ∃ found, tree.discover true a.root = .ok found ∧
                r'.filesChecked = r.filesChecked + ((b.select found).filter fun f =>
                  Path.leadsThrough ["vendor", "testdata"] a.root f.1).countP a.accepts := by
  obtain ⟨scope, table⟩ := parse_restated parsed absent read once
  obtain ⟨own, patterns, -⟩ := excluded_by_default_iff "" (List.forall_mem_nil IsName)
  refine ⟨scope, table, fun plan directory => ?_⟩
  obtain ⟨fails, builds⟩ := plan.build_withoutPatterns scope patterns directory
  refine ⟨fails, fun a b built built' tree proper => ?_⟩
  obtain ⟨config_eq, es, exclusions, rfl⟩ := builds a b built built'
  have git : a.config.scope.respectGitignore = true := by rw [config_eq, scope]; rfl
  refine ⟨fun found there => a.select_aside patterns exclusions proper there, fun none => ?_,
    fun r r' done done' => git ▸ a.filesChecked_aside patterns exclusions proper done done'⟩
  refine Analyzer.analyze_congr rfl rfl rfl (fun _ _ => rfl) fun found there => ?_
  rw [a.select_aside patterns exclusions proper there, List.filter_eq_self.mpr]
  intro f selected
  rw [Analyzer.asideByDefault, none found (git ▸ there) f selected]
  rfl

def warned : String := "fail_on = \"warning\""

theorem parse_warned : Toml.parse warned = .ok [(⟨"fail_on", ⟨0, 7⟩⟩, .string "warning" ⟨10, 19⟩)] := by
  cbv

def warnedConfig : Config := { failOn := some .warning }

theorem config_warned : parse warned = .ok warnedConfig := by
  rw [parse, parse_warned]
  rfl

/-- A project with a file at its root and one in a directory that is left out by itself. -/
def vendoredProject : FileTree :=
  .directory [("w", .directory
    [("c.go", .file (.text "")), ("vendor", .directory [("a.go", .file (.text ""))])])]

theorem vendored_proper : vendoredProject.Proper := by
  have names : ∀ name ∈ ["w", "c.go", "vendor", "a.go"], IsName name := by decide
  simp [vendoredProject, FileTree.Proper, FileTree.ProperEntries, names]

def vendoredFiles : List (String × Content) := [("/w/./c.go", .text ""), ("/w/./vendor/a.go", .text "")]

theorem discover_vendored : vendoredProject.discover true "/w/." = .ok vendoredFiles := by
  decide +kernel

def goPlan : Analyzer.Plan := { rules := Rule.configured {}, language := some Go.language }

/-- What the plan comes to under the settings with the table. -/
def withTable : Analyzer where
  root := "/w/."
  rules := Rule.configured {}
  language := Go.language
  exclusions := []
  config := warnedConfig.withoutPatterns
  failOnParseError := false

theorem select_vendored : withTable.select vendoredFiles = vendoredFiles := by
  have selected : vendoredFiles.filter (fun f => withTable.selects f.1) = vendoredFiles := by
    decide +kernel
  rw [Analyzer.select, selected]
  exact List.mergeSort_of_pairwise (by decide +kernel)

theorem analyze_withTable : withTable.analyze vendoredProject = .ok ⟨[], 2⟩ := by
  have discovered : vendoredProject.discover withTable.config.scope.respectGitignore withTable.root =
      .ok vendoredFiles := discover_vendored
  have checked : withTable.checkFiles vendoredFiles = .ok ⟨[], 2⟩ := by decide +kernel
  simp [Analyzer.analyze, discovered, select_vendored, checked, Except.map, Report.sort]

/-- One file of the project is left out where the patterns hold. -/
theorem aside_vendored : ((withTable.select vendoredFiles).filter fun f =>
    Path.leadsThrough Analyzer.asideByDefault "/w/." f.1).countP withTable.accepts = 1 := by
  rw [select_vendored]
  decide +kernel

theorem build_withoutTable : ∃ own, Analyzer.parseExclusions Scope.default.exclude = .ok own ∧
    (goPlan.under warnedConfig).build "/w" =
      .ok { withTable with exclusions := own, config := warnedConfig } := by
  obtain ⟨own, patterns, -⟩ := excluded_by_default_iff "" (List.forall_mem_nil IsName)
  refine ⟨own, patterns, ?_⟩
  have scope : warnedConfig.scope = .default := rfl
  rw [Analyzer.Plan.build_under, scope]
  change (Analyzer.parseExclusions Scope.default.exclude).map _ = _
  rw [patterns]
  rfl

theorem restated_settings_warned : [Restated.root, .respectGitignore].Nodup ∧
    parse (Restated.table warned [.root, .respectGitignore]) =
      .ok { scope := ⟨".", [], true⟩, failOn := some .warning } ∧
    ∃ a, (goPlan.under warnedConfig).build "/w" = .ok a ∧
      ∀ r, a.analyze vendoredProject = .ok r → r.filesChecked = 1 := by
  have once : [Restated.root, .respectGitignore].Nodup := by decide
  obtain ⟨-, table, plans⟩ := restated_settings parse_warned rfl config_warned once
  obtain ⟨own, -, built⟩ := build_withoutTable
  refine ⟨once, table, _, built, fun r done => ?_⟩
  obtain ⟨-, -, counts⟩ := (plans goPlan "/w").2 _ withTable built rfl vendoredProject vendored_proper
  obtain ⟨found, there, count⟩ := counts r _ done analyze_withTable
  obtain rfl := Except.ok.inj (there.symm.trans discover_vendored)
  have more := count.trans (congrArg (r.filesChecked + ·) aside_vendored)
  exact (Nat.succ.inj more).symm

/-- With the table both files are checked, without it one. -/
theorem restated_settings_vendored : ∃ config config' a b,
    parse warned = .ok config ∧ parse (Restated.table warned [.root, .respectGitignore]) = .ok config' ∧
      (goPlan.under config).build "/w" = .ok a ∧ (goPlan.under config').build "/w" = .ok b ∧
      b.analyze vendoredProject ≠ a.analyze vendoredProject := by
  have once : [Restated.root, .respectGitignore].Nodup := by decide
  obtain ⟨-, table⟩ := parse_restated parse_warned rfl config_warned once
  obtain ⟨own, patterns, built⟩ := build_withoutTable
  refine ⟨_, _, _, withTable, config_warned, table, built, rfl, fun same => ?_⟩
  obtain ⟨found, there, count⟩ :=
    Analyzer.filesChecked_aside { withTable with exclusions := own, config := warnedConfig } patterns
      (List.nil_append own).symm vendored_proper (same.symm.trans analyze_withTable) analyze_withTable
  obtain rfl := Except.ok.inj (there.symm.trans discover_vendored)
  have more := count.trans (congrArg (2 + ·) aside_vendored)
  cases more

end Config

end SwitchLint
