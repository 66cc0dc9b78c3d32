import SwitchLint.Proofs.Assembly
import SwitchLint.Proofs.Walk
import SwitchLint.Go.Reading

/-!
Which file a finding names. Below a directory, a finding names the file with its switch by the names that
lead there from the root. A root that is a file itself has no names below it: its findings name nothing.
-/

namespace SwitchLint

namespace LongChain

/-- The place is that of a switch of the source that the rule reports on. -/
def Locates (rule : LongChain) (source : SourceFile) (l : Location) : Prop :=
  ∃ body ∈ source.functions.filterMap Function.body, ∃ address clauses span,
    (address, clauses, span) ∈ rule.visited body ∧ (rule.scan clauses).isSome = true ∧
      l = .ofSpan l.file span

theorem locates_of_check {rule : LongChain} {context : FileContext} {source : SourceFile}
    {v : Violation} (member : v ∈ rule.check context source) :
    v.location.file = context.path ∧ rule.Locates source v.location := by
  obtain ⟨shared, body, declared, address, clauses, span, visited, scanned, member⟩ :=
    (rule.mem_check_iff context source v).mp member
  obtain ⟨-, -, place⟩ := rule.outcome_fields context clauses span v member
  refine ⟨by rw [place]; rfl, body, declared, address, clauses, span, visited, ?_, ?_⟩
  · rw [scanned]
    rfl
  · rw [place]
    rfl

end LongChain

namespace Analyzer

variable (a : Analyzer)

/-- A check that succeeds reports what is found in the selected files, and nothing else. -/
theorem mem_violations {tree : FileTree} {report : Report} (analyzed : a.analyze tree = .ok report) :
    ∃ found, tree.discover a.config.scope.respectGitignore a.root = .ok found ∧
      ∀ v ∈ report.violations, ∃ f ∈ found, v ∈ a.foundIn f := by
  unfold analyze at analyzed
  cases discovered : tree.discover a.config.scope.respectGitignore a.root with
  | error fault => simp [discovered] at analyzed
  | ok found =>
    refine ⟨found, rfl, fun v hv => ?_⟩
    simp only [discovered] at analyzed
    rcases a.first_or_none (a.select found) with goesOn | ⟨e, before, f, after, whole, goesOn, ends⟩
    · rw [a.checkFiles_of_none goesOn] at analyzed
      obtain rfl := Except.ok.inj analyzed
      obtain ⟨f, hf, member⟩ := List.mem_flatMap.mp (List.mem_mergeSort.mp hv)
      exact ⟨f, List.mem_of_mem_filter (List.mem_mergeSort.mp hf), member⟩
    · rw [whole, a.checkFiles_of_first goesOn ends] at analyzed
      cases analyzed

/-- Each finding is located at a switch that is reported on, in a file at or below the root. If the root
is a directory, the finding names that file by the names on the way, the file's own name last. If the root
is the file, the finding names nothing. -/
theorem finding_names_file (rules : ∀ r ∈ a.rules, ∃ rule : LongChain, r = rule.toRule)
    (tree : FileTree) (proper : tree.Proper) (report : Report)
    (analyzed : a.analyze tree = .ok report) :
    ∃ top node, tree.names a.root = .ok top ∧ tree.node? top = some node ∧
      ∀ v ∈ report.violations, ∃ place text source,
        tree.node? (top ++ place) = some (.file (.text text)) ∧ a.language.parse text = .ok source ∧
        (∃ rule : LongChain, rule.toRule ∈ a.rules ∧ rule.Locates source v.location) ∧
        (node.isDirectory = true → v.location.file ≠ "" ∧
          Path.fileName? v.location.file = (top ++ place).getLast?.map String.toList ∧
          Path.components v.location.file = place.map fun name => .normal name.toList) ∧
        (node.isDirectory = false → place = [] ∧ v.location.file = "") := by
  obtain ⟨found, discovered, members⟩ := a.mem_violations analyzed
  obtain ⟨top, node, way, reached, places⟩ := FileTree.discover_reaches proper discovered
  have nonempty := (FileTree.discover_places proper discovered).1
  refine ⟨top, node, way, reached, fun v hv => ?_⟩
  obtain ⟨⟨path, content⟩, hf, member⟩ := members v hv
  obtain ⟨place, below, rfl, names⟩ := places _ hf
  obtain ⟨text, source, rfl, parsed, r, hr, w, hw, same⟩ := a.mem_foundIn member
  obtain ⟨rule, rfl⟩ := rules r hr
  obtain ⟨file, located⟩ := LongChain.locates_of_check hw
  rw [← same] at file located
  -- The components of the reported path decide both cases: there are none exactly at a root file.
  have components : Path.components v.location.file =
      place.map fun name => .normal name.toList := by
    rw [file]
    exact Path.components_relativeTo_below nonempty names
  refine ⟨place, text, source, ?_, parsed, ⟨rule, hr, located⟩, fun directory => ?_, fun single => ?_⟩
  · rw [FileTree.node_append, reached]
    exact below
  · have onWay : place ≠ [] := by
      rintro rfl
      obtain rfl := Option.some.inj below
      cases directory
    refine ⟨?_, ?_, components⟩
    · rw [Ne, ← Path.components_eq_nil_iff, components, List.map_eq_nil_iff]
      exact onWay
    · rw [List.getLast?_append_of_ne_nil _ onWay]
      exact Path.fileName_of_components components
  · cases node with
    | directory es => cases single
    | file content =>
      obtain ⟨rfl, -⟩ := FileTree.node_of_file below
      exact ⟨rfl, (Path.components_eq_nil_iff _).mp components⟩

theorem analyze_single {tree : FileTree} (f : String × Content) {v : Violation}
    (discovered : tree.discover a.config.scope.respectGitignore a.root = .ok [f])
    (selected : a.selects f.1 = true) (checked : a.checkFiles [f] = .ok ⟨[v], 1⟩) :
    a.analyze tree = .ok ⟨[v], 1⟩ := by
  have alone : a.select [f] = [f] := by simp [select, selected]
  simp [analyze, discovered, alone, checked, Except.map, Report.sort]

def loneSource : String :=
  "package p\nfunc f() \x7b\n\tswitch v \x7b\n\tcase a.b.c.D, a.b.c.E:\n\t\x7d\n\x7d\n"

def loneFile : FileTree :=
  .directory [("p", .directory [("cmd", .directory [("a.go", .file (.text loneSource))])])]

/-- The analyzer for what a path leads to, with the rule's own settings. -/
def checking (root : String) : Analyzer where
  root := root
  rules := [({} : LongChain).toRule]
  language := Go.language
  exclusions := []
  config := {}
  failOnParseError := false

def loneFinding (file : String) : Violation :=
  ({} : LongChain).finding ⟨file, 3, 2, 22, 37⟩ "a.b.c"

theorem finding_names_lone_file :
    loneFile.Proper ∧ (checking "/p").analyze loneFile = .ok ⟨[loneFinding "cmd/a.go"], 1⟩ ∧
      ∃ place text source, loneFile.node? ("p" :: place) = some (.file (.text text)) ∧
        Go.parse text = .ok source ∧
        (∃ rule : LongChain, rule.Locates source (loneFinding "cmd/a.go").location) ∧
        Path.fileName? "cmd/a.go" = ("p" :: place).getLast?.map String.toList := by
  have proper : loneFile.Proper := by
    have names : ∀ name ∈ ["p", "cmd", "a.go"], IsName name := by
      intro name hn
      simp only [List.mem_cons, List.not_mem_nil, or_false] at hn
      rcases hn with rfl | rfl | rfl <;> constructor <;> decide
    simp [loneFile, FileTree.Proper, FileTree.ProperEntries, names]
  have rules : ∀ r ∈ (checking "/p").rules, ∃ rule : LongChain, r = rule.toRule := by
    intro r hr
    exact ⟨{}, List.mem_singleton.mp hr⟩
  have analyzed : (checking "/p").analyze loneFile = .ok ⟨[loneFinding "cmd/a.go"], 1⟩ :=
    (checking "/p").analyze_single ("/p/cmd/a.go", .text loneSource) (by decide +kernel)
      (by decide +kernel) (by decide +kernel)
  obtain ⟨top, node, way, reached, named⟩ :=
    (checking "/p").finding_names_file rules loneFile proper _ analyzed
  have way' : loneFile.names "/p" = .ok ["p"] := by decide +kernel
  obtain rfl : ["p"] = top := Except.ok.inj (way'.symm.trans way)
  obtain rfl := Option.some.inj reached
  obtain ⟨place, text, source, below, parsed, ⟨rule, -, located⟩, byName, -⟩ :=
    named (loneFinding "cmd/a.go") (List.mem_singleton_self _)
  exact ⟨proper, analyzed, place, text, source, below, parsed, ⟨rule, located⟩, (byName rfl).2.1⟩

/-- Checked by its own path, the same file is named by nothing. -/
theorem lone_file_unnamed :
    (checking "/p/cmd/a.go").analyze loneFile = .ok ⟨[loneFinding ""], 1⟩ ∧
      (loneFinding "").location.file = "" :=
  ⟨(checking "/p/cmd/a.go").analyze_single ("/p/cmd/a.go", .text loneSource)
    (by decide +kernel) (by decide +kernel) (by decide +kernel), rfl⟩

end Analyzer

end SwitchLint
