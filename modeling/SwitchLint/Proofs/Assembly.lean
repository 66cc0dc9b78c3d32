import SwitchLint.Analysis.Analyzer
import SwitchLint.Proofs.Discovery
import SwitchLint.Proofs.Sorting

/-!
What a check of a whole project reports: the findings file by file, in the order of the paths and
sorted by place within a file, or the first error. That the findings are sorted once, at the end and by
their paths below the root, makes no difference.
-/

namespace SwitchLint

/-- All that the rule finds lies in the file that it looks at. -/
def Rule.ReportsInFile (r : Rule) : Prop :=
  ∀ file source, ∀ v ∈ r.check file source, v.location.file = file.path

namespace Analyzer

/-! ### One file after the other -/

/-- Is the file a text that the language accepts? -/
def accepts (a : Analyzer) (f : String × Content) : Bool :=
  match f.2.toText with
  | .ok text => (a.language.parse text).isOk
  | .error _ => false

/-- What is found in the file if it is accepted. -/
def foundIn (a : Analyzer) (f : String × Content) : List Violation :=
  match f.2.toText with
  | .ok text => (a.checkSource f.1 text).toOption.getD []
  | .error _ => []

/-- The file ends the check with the error: it is no text, or it cannot be parsed where that matters. -/
inductive EndsAt (a : Analyzer) : String × Content → AnalysisError → Prop
  | unreadable {path : String} {content : Content} {fault : FileFault} :
      content.toText = .error fault → EndsAt a (path, content) (.unreadable fault)
  | unparsable {path : String} {content : Content} {text : String} {error : ParseError} :
      a.failOnParseError = true → content.toText = .ok text → a.language.parse text = .error error →
      EndsAt a (path, content) (.unparsable path error)

theorem checkFiles_congr {a b : Analyzer} (strict : b.failOnParseError = a.failOnParseError)
    (same : ∀ path text, b.checkSource path text = a.checkSource path text)
    (files : List (String × Content)) : b.checkFiles files = a.checkFiles files := by
  induction files with
  | nil => rfl
  | cons f files ih =>
    obtain ⟨path, content⟩ := f
    simp only [checkFiles, same, strict, ih]

/-- Analyzers that select the same files and find the same in each of them report the same. -/
theorem analyze_congr {a b : Analyzer} {tree : FileTree} (root : b.root = a.root)
    (git : b.config.scope.respectGitignore = a.config.scope.respectGitignore)
    (strict : b.failOnParseError = a.failOnParseError)
    (same : ∀ path text, b.checkSource path text = a.checkSource path text)
    (selected : ∀ found, tree.discover a.config.scope.respectGitignore a.root = .ok found →
      b.select found = a.select found) : b.analyze tree = a.analyze tree := by
  rw [analyze, analyze, root, git]
  cases discovered : tree.discover a.config.scope.respectGitignore a.root with
  | error fault => rfl
  | ok found => simp only [selected found discovered, checkFiles_congr strict same]

variable (a : Analyzer)

theorem checkFiles_ends {f : String × Content} {e : AnalysisError} (ends : a.EndsAt f e)
    (files : List (String × Content)) : a.checkFiles (f :: files) = .error e := by
  cases ends with
  | unreadable fault => simp [checkFiles, fault]
  | unparsable strict readable fault => simp [checkFiles, checkSource, readable, fault, strict]

/-- A file that does not end the check adds what is found in it, and counts if it is accepted. -/
theorem checkFiles_goes_on {f : String × Content} (goesOn : ∀ e, ¬ a.EndsAt f e)
    (files : List (String × Content)) : a.checkFiles (f :: files) = (a.checkFiles files).map
      fun r => ⟨a.foundIn f ++ r.violations, r.filesChecked + if a.accepts f then 1 else 0⟩ := by
  obtain ⟨path, content⟩ := f
  cases readable : content.toText with
  | error fault => exact absurd (.unreadable readable) (goesOn _)
  | ok text =>
    cases parsed : a.language.parse text with
    | ok source =>
      simp [checkFiles, checkSource, foundIn, accepts, readable, parsed, Except.isOk, Except.toBool,
        Except.toOption]
    | error e =>
      have lenient : a.failOnParseError = false := by
        by_contra strict
        exact goesOn _ (.unparsable (by simpa using strict) readable parsed)
      cases rest : a.checkFiles files <;>
        simp [checkFiles, checkSource, foundIn, accepts, readable, parsed, lenient, rest, Except.isOk,
          Except.toBool, Except.toOption, Except.map]

theorem checkFiles_of_none {files : List (String × Content)}
    (goesOn : ∀ f ∈ files, ∀ e, ¬ a.EndsAt f e) :
    a.checkFiles files = .ok ⟨files.flatMap a.foundIn, files.countP a.accepts⟩ := by
  induction files with
  | nil => rfl
  | cons f files ih =>
    have head := goesOn f List.mem_cons_self
    have tail := ih fun g hg => goesOn g (List.mem_cons_of_mem f hg)
    rw [a.checkFiles_goes_on head, tail, List.countP_cons]
    rfl

theorem checkFiles_of_first {before after : List (String × Content)} {f : String × Content}
    {e : AnalysisError} (goesOn : ∀ g ∈ before, ∀ e', ¬ a.EndsAt g e') (ends : a.EndsAt f e) :
    a.checkFiles (before ++ f :: after) = .error e := by
  induction before with
  | nil => exact a.checkFiles_ends ends after
  | cons g before ih =>
    have tail := ih fun h hh => goesOn h (List.mem_cons_of_mem g hh)
    rw [List.cons_append, a.checkFiles_goes_on (goesOn g List.mem_cons_self), tail]
    rfl

theorem first_or_none (files : List (String × Content)) :
    (∀ f ∈ files, ∀ e, ¬ a.EndsAt f e) ∨ ∃ e before f after, files = before ++ f :: after ∧
      (∀ g ∈ before, ∀ e', ¬ a.EndsAt g e') ∧ a.EndsAt f e := by
  induction files with
  | nil => simp
  | cons f files ih =>
    by_cases ends : ∃ e, a.EndsAt f e
    · obtain ⟨e, ends⟩ := ends
      exact .inr ⟨e, [], f, files, rfl, by simp, ends⟩
    · have head := not_exists.mp ends
      rcases ih with tail | ⟨e, before, g, after, rfl, goesOn, ends⟩
      · exact .inl (List.forall_mem_cons.mpr ⟨head, tail⟩)
      · exact .inr ⟨e, f :: before, g, after, rfl, List.forall_mem_cons.mpr ⟨head, goesOn⟩, ends⟩

/-- The first file that ends the check decides on the error. -/
theorem checkFiles_error_iff (files : List (String × Content)) (e : AnalysisError) :
    a.checkFiles files = .error e ↔ ∃ before f after, files = before ++ f :: after ∧
      (∀ g ∈ before, ∀ e', ¬ a.EndsAt g e') ∧ a.EndsAt f e := by
  constructor
  · intro failed
    rcases a.first_or_none files with goesOn | ⟨e', before, f, after, rfl, goesOn, ends⟩
    · rw [a.checkFiles_of_none goesOn] at failed
      cases failed
    · rw [a.checkFiles_of_first goesOn ends] at failed
      exact ⟨before, f, after, rfl, goesOn, Except.error.inj failed ▸ ends⟩
  · rintro ⟨before, f, after, rfl, goesOn, ends⟩
    exact a.checkFiles_of_first goesOn ends

/-! ### Places of files and findings -/

/-- What is found in a file is what a rule says of its source, save perhaps for the severity. -/
theorem mem_foundIn {f : String × Content} {v : Violation} (member : v ∈ a.foundIn f) :
    ∃ text source, f.2 = .text text ∧ a.language.parse text = .ok source ∧
      ∃ r ∈ a.rules, ∃ w ∈ r.check (.ofPath f.1 text a.root) source, v.location = w.location := by
  obtain ⟨path, content⟩ := f
  cases content with
  | binary bytes => cases member
  | text text =>
    cases parsed : a.language.parse text with
    | error e => simp [foundIn, Content.toText, parsed, checkSource, Except.toOption] at member
    | ok source =>
      simp only [foundIn, Content.toText, parsed, checkSource, Except.toOption, Option.getD_some,
        List.mem_flatMap] at member
      obtain ⟨r, hr, member⟩ := member
      unfold runRule at member
      split at member
      · obtain ⟨w, hw, rfl⟩ := List.mem_map.mp member
        refine ⟨text, source, rfl, parsed, r, hr, w, hw, ?_⟩
        unfold overrideSeverity
        split
        · split <;> rfl
        · rfl
      · cases member

theorem foundIn_file (rules : ∀ r ∈ a.rules, r.ReportsInFile) (f : String × Content)
    (v : Violation) (member : v ∈ a.foundIn f) : v.location.file = Path.relativeTo a.root f.1 := by
  obtain ⟨text, source, _, _, r, hr, w, hw, place⟩ := a.mem_foundIn member
  rw [place, rules r hr _ source w hw]
  rfl

/-- The selected files stand in the strict order of their paths. -/
theorem select_ordered {tree : FileTree} (proper : tree.Proper) {git : Bool}
    {found : List (String × Content)} (discovered : tree.discover git a.root = .ok found) :
    (a.select found).Pairwise fun f g => Path.compare f.1 g.1 = .lt := by
  have distinct := (FileTree.discover_components proper discovered).2
  have sorted : (a.select found).Pairwise fun f g => (Path.compare f.1 g.1 != .gt) = true := by
    apply List.pairwise_mergeSort
    · intro f g h
      exact not_gt_trans f.1 g.1 h.1
    · intro f g
      exact not_gt_total f.1 g.1
  have others : (a.select found).Pairwise fun f g => Path.components f.1 ≠ Path.components g.1 := by
    have kept := distinct.sublist ((found.filter_sublist (p := fun f => a.selects f.1)).map _)
    rw [List.Nodup, List.pairwise_map] at kept
    exact kept.perm (List.mergeSort_perm _ _).symm Ne.symm
  refine (sorted.and others).imp ?_
  rintro f g ⟨noLater, different⟩
  rw [Ne, ← Path.compare_eq_iff] at different
  cases order : Path.compare f.1 g.1 <;> simp_all

theorem select_relative_ordered {tree : FileTree} (proper : tree.Proper) {git : Bool}
    {found : List (String × Content)} (discovered : tree.discover git a.root = .ok found) :
    (a.select found).Pairwise fun f g =>
      Path.compare (Path.relativeTo a.root f.1) (Path.relativeTo a.root g.1) = .lt := by
  have nonempty := (FileTree.discover_places proper discovered).1
  have below := (FileTree.discover_components proper discovered).1
  refine (a.select_ordered proper discovered).imp_of_mem ?_
  intro f g hf hg less
  have inFound {h : String × Content} (member : h ∈ a.select found) : h ∈ found :=
    List.mem_of_mem_filter (List.mem_mergeSort.mp member)
  rwa [Path.compare_relativeTo nonempty (below f (inFound hf)) (below g (inFound hg))]

/-! ### All files -/

/-- Sorting everything by file and place sorts the findings of each file by place. -/
theorem sort_findings (rules : ∀ r ∈ a.rules, r.ReportsInFile) {files : List (String × Content)}
    (ordered : files.Pairwise fun f g =>
      Path.compare (Path.relativeTo a.root f.1) (Path.relativeTo a.root g.1) = .lt) :
    (files.flatMap a.foundIn).mergeSort (fun v w => v.location.le w.location) =
      files.flatMap fun f => (a.foundIn f).mergeSort fun v w => v.location.leWithin w.location := by
  rw [mergeSort_flatMap_of_le]
  · refine List.flatMap_congr fun f _ => mergeSort_congr fun v hv w hw => ?_
    apply Location.le_of_same_file
    rw [a.foundIn_file rules f v hv, a.foundIn_file rules f w hw]
  · intro u v w
    exact Location.le_trans u.location v.location w.location
  · intro v w
    exact Location.le_total v.location w.location
  · refine ordered.imp ?_
    intro f g less v hv w hw
    apply Location.le_of_file_lt
    rwa [a.foundIn_file rules f v hv, a.foundIn_file rules g w hw]

/-- The files that are checked are the selected ones, in the strict order of their paths. If none of
them ends the check, each accepted file counts and contributes its findings in the order of their
places, and the others contribute nothing. Otherwise the first file that ends the check says how. -/
theorem analyze_assembles (rules : ∀ r ∈ a.rules, r.ReportsInFile) (tree : FileTree)
    (proper : tree.Proper) (found : List (String × Content))
    (discovered : tree.discover a.config.scope.respectGitignore a.root = .ok found) :
    ((a.select found).Perm (found.filter fun f => a.selects f.1) ∧
      (a.select found).Pairwise fun f g => Path.compare f.1 g.1 = .lt) ∧
    ((∀ f ∈ a.select found, ∀ e, ¬ a.EndsAt f e) → a.analyze tree = .ok
      { violations := (a.select found).flatMap fun f =>
          (a.foundIn f).mergeSort fun v w => v.location.leWithin w.location
        filesChecked := (a.select found).countP a.accepts }) ∧
    ∀ e, a.analyze tree = .error e ↔ ∃ before f after, a.select found = before ++ f :: after ∧
      (∀ g ∈ before, ∀ e', ¬ a.EndsAt g e') ∧ a.EndsAt f e := by
  have run : a.analyze tree = (a.checkFiles (a.select found)).map Report.sort := by
    rw [analyze, discovered]
  refine ⟨⟨List.mergeSort_perm _ _, a.select_ordered proper discovered⟩, ?_, ?_⟩
  · intro goesOn
    have ordered := a.select_relative_ordered proper discovered
    rw [run, a.checkFiles_of_none goesOn, ← a.sort_findings rules ordered]
    rfl
  · intro e
    rw [run, ← a.checkFiles_error_iff]
    cases a.checkFiles (a.select found) <;> simp [Except.map]

def foundAt (path : String) : Violation :=
  ⟨"X001", "once", .warning, .point path 1 1, "found", none⟩

/-- A rule that finds one thing in every file. -/
def once : Rule where
  name := "once"
  code := "X001"
  description := ""
  severity := .warning
  check file _ := [foundAt file.path]

/-- Every text is accepted but the empty one. -/
def forTexts : Analyzer where
  root := "/p"
  rules := [once]
  language := ⟨["txt"], fun text => if text = "" then .error ⟨1, 1, "empty"⟩ else .ok ⟨[]⟩⟩
  exclusions := []
  config := {}
  failOnParseError := false

def threeTexts : List (String × Content) :=
  [("/p/a/z.txt", .text "z"), ("/p/b.txt", .text ""), ("/p/c.txt", .text "c")]

def treeOfTexts : FileTree :=
  .directory [("p", .directory
    [("a", .directory [("z.txt", .file (.text "z"))]), ("b.txt", .file (.text "")),
      ("c.txt", .file (.text "c"))])]

theorem analyze_assembles_three_texts :
    (∀ r ∈ forTexts.rules, r.ReportsInFile) ∧ treeOfTexts.Proper ∧
      treeOfTexts.discover true "/p" = .ok threeTexts ∧
      forTexts.analyze treeOfTexts = .ok ⟨[foundAt "a/z.txt", foundAt "c.txt"], 2⟩ := by
  have rules : ∀ r ∈ forTexts.rules, r.ReportsInFile := by
    intro r hr file source v hv
    obtain rfl := List.mem_singleton.mp hr
    obtain rfl := List.mem_singleton.mp hv
    rfl
  have proper : treeOfTexts.Proper := by
    have names : ∀ name ∈ ["p", "a", "z.txt", "b.txt", "c.txt"], IsName name := by
      intro name hn
      simp only [List.mem_cons, List.not_mem_nil, or_false] at hn
      rcases hn with rfl | rfl | rfl | rfl | rfl <;> constructor <;> decide
    simp [treeOfTexts, FileTree.Proper, FileTree.ProperEntries, names]
  have selected : forTexts.select threeTexts = threeTexts := List.mergeSort_of_pairwise (by decide)
  have goesOn : ∀ f ∈ forTexts.select threeTexts, ∀ e, ¬ forTexts.EndsAt f e := by
    rw [selected]
    intro f hf e ends
    cases ends with
    | unreadable fault =>
      simp only [threeTexts, List.mem_cons, Prod.mk.injEq, List.not_mem_nil, or_false] at hf
      rcases hf with ⟨_, rfl⟩ | ⟨_, rfl⟩ | ⟨_, rfl⟩ <;> cases fault
    | unparsable strict => cases strict
  have assembled := (forTexts.analyze_assembles rules treeOfTexts proper threeTexts rfl).2.1 goesOn
  have first : forTexts.foundIn ("/p/a/z.txt", .text "z") = [foundAt "a/z.txt"] := rfl
  have second : forTexts.foundIn ("/p/b.txt", .text "") = [] := rfl
  have third : forTexts.foundIn ("/p/c.txt", .text "c") = [foundAt "c.txt"] := rfl
  have count : threeTexts.countP forTexts.accepts = 2 := by decide
  refine ⟨rules, proper, rfl, ?_⟩
  rw [assembled, selected, count]
  simp [threeTexts, first, second, third]

end Analyzer

end SwitchLint
