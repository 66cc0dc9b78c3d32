import Mathlib.Data.List.Perm.Basic
import SwitchLint.Proofs.Assembly
import SwitchLint.Proofs.ConfiguredRoot
import SwitchLint.Proofs.Walk

/-!
Rules do not depend on one another. Whether a rule is switched off by the settings or left out by name,
what the others say stays as it is, in its order; and the order of the rules shows only where several
findings share a place.
-/

namespace SwitchLint

/-- All that the rule finds names the rule. -/
def Rule.SignsFindings (r : Rule) : Prop :=
  ∀ file source, ∀ v ∈ r.check file source, v.rule = r.name

/-- The report without what rules of that name say. -/
def Report.without (r : Report) (name : String) : Report :=
  { r with violations := r.violations.filter (·.rule != name) }

/-- The second settings switch the rule off and say the same of the files and of all other rules. -/
structure Config.SwitchesOff (name : String) (config config' : Config) : Prop where
  off : config'.isEnabled name = false
  others : ∀ other, other ≠ name → config'.rule? other = config.rule? other
  scope : config'.scope = config.scope

/-- Is the rule among those named, be it by its name or by its code? -/
def CommandLine.keeps (names : List String) (r : Rule) : Bool :=
  names.contains r.name || names.contains r.code

namespace Analyzer

/-! ### Analyzers that read the same files -/

/-- The analyzers select and parse the same files. Their rules, and what the settings say of these, may
differ. -/
structure ReadsAlike (a b : Analyzer) : Prop where
  root : b.root = a.root
  language : b.language = a.language
  exclusions : b.exclusions = a.exclusions
  gitignore : b.config.scope.respectGitignore = a.config.scope.respectGitignore
  failOnParseError : b.failOnParseError = a.failOnParseError

section TwoAnalyzers

variable {a b : Analyzer} (alike : a.ReadsAlike b)

include alike

theorem accepts_alike (f : String × Content) : b.accepts f = a.accepts f := by
  rw [accepts, accepts, alike.language]

theorem select_alike (files : List (String × Content)) : b.select files = a.select files := by
  have selected (path : String) : b.selects path = a.selects path := by
    rw [selects, selects, alike.language, alike.exclusions, alike.root]
  simp only [select, selected]

theorem endsAt_alike {f : String × Content} {e : AnalysisError} (ends : a.EndsAt f e) :
    b.EndsAt f e := by
  cases ends with
  | unreadable fault => exact .unreadable fault
  | unparsable strict readable fault =>
    refine .unparsable ?_ readable ?_
    · rw [alike.failOnParseError, strict]
    · rw [alike.language, fault]

theorem alike_symm : b.ReadsAlike a where
  root := alike.root.symm
  language := alike.language.symm
  exclusions := alike.exclusions.symm
  gitignore := alike.gitignore.symm
  failOnParseError := alike.failOnParseError.symm

/-- Both fail in the same way, or both report all that they find in the same files. -/
theorem analyze_alike (tree : FileTree) :
    (∃ e, a.analyze tree = .error e ∧ b.analyze tree = .error e) ∨
    ∃ (files : List (String × Content)) (checked : Nat),
      a.analyze tree = .ok (Report.sort ⟨files.flatMap a.foundIn, checked⟩) ∧
      b.analyze tree = .ok (Report.sort ⟨files.flatMap b.foundIn, checked⟩) := by
  rw [analyze, analyze, alike.gitignore, alike.root]
  cases tree.discover a.config.scope.respectGitignore a.root with
  | error fault => exact .inl ⟨_, rfl, rfl⟩
  | ok found =>
    simp only [select_alike alike]
    rcases a.first_or_none (a.select found) with goesOn | ⟨e, before, f, after, whole, goesOn, ends⟩
    · right
      have goesOn' : ∀ f ∈ a.select found, ∀ e, ¬ b.EndsAt f e :=
        fun f hf e ends => goesOn f hf e (endsAt_alike (alike_symm alike) ends)
      have count : (a.select found).countP b.accepts = (a.select found).countP a.accepts :=
        List.countP_congr fun f _ => by rw [accepts_alike alike f]
      refine ⟨a.select found, (a.select found).countP a.accepts, ?_, ?_⟩
      · rw [a.checkFiles_of_none goesOn]
        rfl
      · rw [b.checkFiles_of_none goesOn', count]
        rfl
    · left
      have goesOn' : ∀ g ∈ before, ∀ e', ¬ b.EndsAt g e' :=
        fun g hg e' ends' => goesOn g hg e' (endsAt_alike (alike_symm alike) ends')
      refine ⟨e, ?_, ?_⟩
      · rw [whole, a.checkFiles_of_first goesOn ends]
        rfl
      · rw [whole, b.checkFiles_of_first goesOn' (endsAt_alike alike ends)]
        rfl

theorem foundIn_alike (related : List Violation → List Violation → Prop) (nothing : related [] [])
    (sources : ∀ file source, related (a.rules.flatMap (a.runRule file source))
      (b.rules.flatMap (b.runRule file source))) (f : String × Content) :
    related (a.foundIn f) (b.foundIn f) := by
  obtain ⟨path, content⟩ := f
  cases readable : content.toText with
  | error fault => simpa only [foundIn, readable] using nothing
  | ok text =>
    cases parsed : a.language.parse text with
    | error e =>
      simpa [foundIn, readable, checkSource, alike.language, parsed, Except.toOption] using nothing
    | ok source =>
      have found := sources (.ofPath path text a.root) source
      simpa [foundIn, readable, checkSource, alike.language, alike.root, parsed, Except.toOption]
        using found

/-! ### Leaving rules out -/

theorem analyze_without (name : String) (tree : FileTree)
    (dropped : ∀ file source, b.rules.flatMap (b.runRule file source) =
      (a.rules.flatMap (a.runRule file source)).filter (·.rule != name)) :
    b.analyze tree = (a.analyze tree).map (·.without name) := by
  have found (f : String × Content) : b.foundIn f = (a.foundIn f).filter (·.rule != name) :=
    foundIn_alike alike (fun vs ws => ws = vs.filter (·.rule != name)) rfl dropped f
  rcases analyze_alike alike tree with ⟨e, failed, failed'⟩ | ⟨files, checked, done, done'⟩
  · rw [failed, failed']
    rfl
  · have commutes := Report.sort_filter ⟨files.flatMap a.foundIn, checked⟩ (·.rule != name)
    have all : files.flatMap b.foundIn = (files.flatMap a.foundIn).filter (·.rule != name) := by
      rw [List.filter_flatMap]
      exact List.flatMap_congr fun f _ => found f
    rw [done, done', all]
    exact congrArg Except.ok commutes

end TwoAnalyzers

theorem runRule_signed {a : Analyzer} {r : Rule} (signed : r.SignsFindings) (file : FileContext)
    (source : SourceFile) : ∀ v ∈ a.runRule file source r, v.rule = r.name := by
  intro v member
  unfold runRule at member
  split at member
  · obtain ⟨w, hw, rfl⟩ := List.mem_map.mp member
    have same : (overrideSeverity r.severity (a.config.severity? r.name) w).rule = w.rule := by
      unfold overrideSeverity
      split
      · split <;> rfl
      · rfl
    rw [same]
    exact signed file source w hw
  · cases member

theorem findings_without {a : Analyzer} {rules : List Rule} (signed : ∀ r ∈ rules, r.SignsFindings)
    (name : String) (file : FileContext) (source : SourceFile) :
    (rules.flatMap (a.runRule file source)).filter (·.rule != name) =
      (rules.filter (·.name != name)).flatMap (a.runRule file source) := by
  induction rules with
  | nil => rfl
  | cons r rules ih =>
    have own := runRule_signed (a := a) (signed r List.mem_cons_self) file source
    have rest := ih fun r' hr => signed r' (List.mem_cons_of_mem r hr)
    rw [List.flatMap_cons, List.filter_append, rest]
    by_cases named : r.name = name
    · have none : (a.runRule file source r).filter (·.rule != name) = [] := by
        rw [List.filter_eq_nil_iff]
        intro v hv
        simp [own v hv, named]
      simp [none, named]
    · have all : (a.runRule file source r).filter (·.rule != name) = a.runRule file source r := by
        rw [List.filter_eq_self]
        intro v hv
        simp [own v hv, named]
      simp [all, named]

theorem runRule_switched_off {a b : Analyzer} {name : String} {r : Rule}
    (off : a.config.SwitchesOff name b.config) (other : r.name ≠ name) (file : FileContext)
    (source : SourceFile) : b.runRule file source r = a.runRule file source r := by
  have settings := off.others r.name other
  have enabled : b.config.isEnabled r.name = a.config.isEnabled r.name := by
    rw [Config.isEnabled, Config.isEnabled, settings]
  have severity : b.config.severity? r.name = a.config.severity? r.name := by
    rw [Config.severity?, Config.severity?, settings]
  rw [runRule, runRule, enabled, severity]

theorem runRule_off {b : Analyzer} {r : Rule} (off : b.config.isEnabled r.name = false)
    (file : FileContext) (source : SourceFile) : b.runRule file source r = [] := by
  simp [runRule, off]

theorem findings_switched_off {a b : Analyzer} {name : String} (rules : List Rule)
    (off : a.config.SwitchesOff name b.config) (file : FileContext) (source : SourceFile) :
    rules.flatMap (b.runRule file source) =
      (rules.filter (·.name != name)).flatMap (a.runRule file source) := by
  induction rules with
  | nil => rfl
  | cons r rules ih =>
    rw [List.flatMap_cons, ih]
    -- A rule of that name has nothing to say now; any other says what it said.
    by_cases named : r.name = name
    · have silent : b.config.isEnabled r.name = false := by rw [named, off.off]
      simp [named, runRule_off silent]
    · simp [named, runRule_switched_off off named]

/-! ### The order of the rules -/

/-- Both fail in the same way, or the findings are the same, and stand in another order at most where they
share a place. -/
inductive Reordered : Except AnalysisError Report → Except AnalysisError Report → Prop
  | failed (e : AnalysisError) : Reordered (.error e) (.error e)
  | done {r r' : Report} : r.filesChecked = r'.filesChecked → r.violations.Perm r'.violations →
      r.violations.map (·.location.key) = r'.violations.map (·.location.key) →
      Reordered (.ok r) (.ok r')

theorem sort_reordered {vs ws : List Violation} (same : vs.Perm ws) (checked : Nat) :
    Reordered (.ok (Report.sort ⟨vs, checked⟩)) (.ok (Report.sort ⟨ws, checked⟩)) := by
  have permuted : (Report.sort ⟨vs, checked⟩).violations.Perm (Report.sort ⟨ws, checked⟩).violations :=
    (List.mergeSort_perm _ _).trans (same.trans (List.mergeSort_perm _ _).symm)
  exact .done rfl permuted (sorted_keys_unique permuted (Report.sort_sorted _) (Report.sort_sorted _))

theorem analyze_reordered (a : Analyzer) {rules : List Rule} (permuted : a.rules.Perm rules)
    (tree : FileTree) : Reordered (a.analyze tree) (analyze { a with rules } tree) := by
  have alike : a.ReadsAlike { a with rules } := ⟨rfl, rfl, rfl, rfl, rfl⟩
  have found (f : String × Content) : (a.foundIn f).Perm (foundIn { a with rules } f) :=
    foundIn_alike alike List.Perm .rfl
      (fun file source => permuted.flatMap_right (a.runRule file source)) f
  rcases analyze_alike alike tree with ⟨e, failed, failed'⟩ | ⟨files, checked, done, done'⟩
  · rw [failed, failed']
    exact .failed e
  · rw [done, done']
    exact sort_reordered (List.Perm.flatMap_left files fun f _ => found f) checked

end Analyzer

/-! ### The program -/

namespace CommandLine

theorem configured_signed (config : Config) : ∀ r ∈ Rule.configured config, r.SignsFindings := by
  intro r member file source v found
  have own : ∃ rule : LongChain, r = rule.toRule := by
    unfold Rule.configured at member
    split at member
    · split at member
      · exact ⟨_, List.mem_singleton.mp member⟩
      · exact ⟨_, List.mem_singleton.mp member⟩
    · cases member
  obtain ⟨rule, rfl⟩ := own
  obtain ⟨_, body, _, _, clauses, span, _, _, said⟩ := (rule.mem_check_iff file source v).mp found
  exact (rule.outcome_fields file clauses span v said).2.1

theorem configured_switched_off {name : String} {config config' : Config}
    (off : config.SwitchesOff name config') :
    Rule.configured config' = (Rule.configured config).filter (·.name != name) := by
  by_cases named : LongChain.name = name
  -- The rule is not even made; the ones that are made are found not to have the name.
  · have silent : config'.isEnabled LongChain.name = false := by rw [named, off.off]
    have others : (Rule.configured config).filter (·.name != name) = [] := by
      unfold Rule.configured
      split
      · split <;> simp [LongChain.toRule, named]
      · rfl
    rw [others]
    simp [Rule.configured, silent]
  · have settings := off.others LongChain.name named
    have enabled : config'.isEnabled LongChain.name = config.isEnabled LongChain.name := by
      rw [Config.isEnabled, Config.isEnabled, settings]
    have all : (Rule.configured config).filter (·.name != name) = Rule.configured config := by
      unfold Rule.configured
      split
      · split <;> simp [LongChain.toRule, named]
      · rfl
    rw [all, Rule.configured, Rule.configured, enabled, settings]

theorem rulesFor_switched_off {name : String} {config config' : Config}
    (off : config.SwitchesOff name config') (names : Option (List String)) :
    rulesFor config' names = (rulesFor config names).filter (·.name != name) := by
  cases names with
  | none => exact configured_switched_off off
  | some names =>
    simp only [rulesFor, configured_switched_off off, List.filter_filter]
    exact List.filter_congr fun r _ => Bool.and_comm _ _

theorem filter_exactly {rules : List Rule} {name : String} {names : List String}
    (exactly : ∀ r ∈ rules, keeps names r = true ↔ r.name ≠ name) :
    rules.filter (keeps names) = rules.filter (·.name != name) := by
  refine List.filter_congr fun r hr => ?_
  rw [Bool.eq_iff_iff, exactly r hr, bne_iff_ne]

theorem rulesFor_signed (config : Config) (names : Option (List String)) :
    ∀ r ∈ rulesFor config names, r.SignsFindings := by
  intro r member
  cases names with
  | none => exact configured_signed config r member
  | some names => exact configured_signed config r (List.mem_of_mem_filter member)

/-- Two runs of the program that read the same files with the same exclusions, the second without the
rules of a name. -/
theorem checkWith_without (w : Workspace) {name : String} {config config' : Config}
    {names names' : Option (List String)} (scope : config'.scope = config.scope)
    (path : String) (excludes : List String)
    (dropped : ∀ a b : Analyzer, a.root = b.root → a.config = config → b.config = config' →
      ∀ file source, (rulesFor config' names').flatMap (b.runRule file source) =
        ((rulesFor config names).flatMap (a.runRule file source)).filter (·.rule != name)) :
    checkWith w config' path names' excludes =
      (checkWith w config path names excludes).map (·.without name) := by
  rw [checkWith, checkWith, build_planFor, build_planFor, scope]
  cases Analyzer.parseExclusions (excludes ++ config.scope.exclude) with
  | error fault => rfl
  | ok exclusions =>
    let a : Analyzer := ⟨Path.append w.directory path, rulesFor config names, Go.language, exclusions,
      config, false⟩
    let b : Analyzer := { a with rules := rulesFor config' names', config := config' }
    have alike : a.ReadsAlike b := ⟨rfl, rfl, rfl, congrArg Scope.respectGitignore scope, rfl⟩
    have run : b.analyze w.files = (a.analyze w.files).map (·.without name) :=
      Analyzer.analyze_without alike name w.files (dropped a b rfl rfl rfl)
    simp only [Except.map]
    rw [run]
    cases a.analyze w.files <;> rfl

theorem checkWith_switched_off (w : Workspace) {name : String} {config config' : Config}
    (off : config.SwitchesOff name config') (path : String) (names : Option (List String))
    (excludes : List String) : checkWith w config' path names excludes =
      (checkWith w config path names excludes).map (·.without name) := by
  apply checkWith_without w off.scope path excludes
  rintro a b - rfl rfl file source
  rw [Analyzer.findings_without (rulesFor_signed _ names), rulesFor_switched_off off names,
    Analyzer.findings_switched_off _ off, List.filter_filter]
  simp only [Bool.and_self]

theorem checkWith_named (w : Workspace) {name : String} (config : Config) (path : String)
    {names : List String} (excludes : List String)
    (exactly : ∀ r ∈ Rule.configured config, keeps names r = true ↔ r.name ≠ name) :
    checkWith w config path (some names) excludes =
      (checkWith w config path none excludes).map (·.without name) := by
  apply checkWith_without w rfl path excludes
  rintro a b - rfl same file source
  have others : rulesFor a.config (some names) = (rulesFor a.config none).filter (·.name != name) :=
    filter_exactly exactly
  have alike : b.runRule file source = a.runRule file source := by
    funext r
    rw [Analyzer.runRule, Analyzer.runRule, same]
  rw [Analyzer.findings_without (rulesFor_signed _ none), others, alike]

end CommandLine

namespace Analyzer

/-- What is reported without the rules of a name is the report without what they say, whether the settings
switch them off or the names given leave them out; and another order of the rules changes the order only
of findings at one place. It is the same for runs of the program, where rules that are switched off are
not even made. -/
theorem rules_independent (a : Analyzer) (signed : ∀ r ∈ a.rules, r.SignsFindings) (name : String)
    (tree : FileTree) :
    (∀ config, a.config.SwitchesOff name config →
      analyze { a with config } tree = (a.analyze tree).map (·.without name)) ∧
    (∀ names, (∀ r ∈ a.rules, CommandLine.keeps names r = true ↔ r.name ≠ name) →
      analyze { a with rules := a.rules.filter (CommandLine.keeps names) } tree =
        (a.analyze tree).map (·.without name)) ∧
    (∀ rules, a.rules.Perm rules → Reordered (a.analyze tree) (analyze { a with rules } tree)) ∧
    ∀ (w : Workspace) (config : Config) (path : String) (excludes : List String),
      (∀ config', config.SwitchesOff name config' → ∀ names,
        CommandLine.checkWith w config' path names excludes =
          (CommandLine.checkWith w config path names excludes).map (·.without name)) ∧
      ∀ names, (∀ r ∈ Rule.configured config, CommandLine.keeps names r = true ↔ r.name ≠ name) →
        CommandLine.checkWith w config path (some names) excludes =
          (CommandLine.checkWith w config path none excludes).map (·.without name) := by
  refine ⟨?_, ?_, ?_, ?_⟩
  · intro config off
    have alike : a.ReadsAlike { a with config } :=
      ⟨rfl, rfl, rfl, congrArg Scope.respectGitignore off.scope, rfl⟩
    apply analyze_without alike name tree
    intro file source
    rw [findings_without signed]
    exact findings_switched_off a.rules off file source
  · intro names exactly
    have alike : a.ReadsAlike { a with rules := a.rules.filter (CommandLine.keeps names) } :=
      ⟨rfl, rfl, rfl, rfl, rfl⟩
    apply analyze_without alike name tree
    intro file source
    rw [findings_without signed, CommandLine.filter_exactly exactly]
    rfl
  · intro rules permuted
    exact a.analyze_reordered permuted tree
  · intro w config path excludes
    refine ⟨fun config' off names => ?_, fun names exactly => ?_⟩
    · exact CommandLine.checkWith_switched_off w off path names excludes
    · exact CommandLine.checkWith_named w config path excludes exactly

/-- A second rule that finds the same thing as the first. -/
def again : Rule where
  name := "again"
  code := "X002"
  description := ""
  severity := .warning
  check file _ := [{ foundAt file.path with code := "X002", rule := "again" }]

def twice : Analyzer := { forTexts with rules := [once, again] }

def onlyAgain : Config := { rules := [("once", { enabled := some false })] }

theorem rules_independent_twice :
    (∀ r ∈ twice.rules, r.SignsFindings) ∧ twice.config.SwitchesOff "once" onlyAgain ∧
    twice.rules.Perm [again, once] ∧
    analyze { twice with config := onlyAgain } treeOfTexts =
      (twice.analyze treeOfTexts).map (·.without "once") ∧
    analyze { twice with rules := [again] } treeOfTexts =
      (twice.analyze treeOfTexts).map (·.without "once") ∧
    Reordered (twice.analyze treeOfTexts) (analyze { twice with rules := [again, once] } treeOfTexts) ∧
    CommandLine.checkWith ⟨treeOfTexts, "/p"⟩ onlyAgain "." none [] =
      (CommandLine.checkWith ⟨treeOfTexts, "/p"⟩ {} "." none []).map (·.without "once") ∧
    CommandLine.checkWith ⟨treeOfTexts, "/p"⟩ {} "." (some ["CL001"]) [] =
      (CommandLine.checkWith ⟨treeOfTexts, "/p"⟩ {} "." none []).map (·.without "once") := by
  have signed : ∀ r ∈ twice.rules, r.SignsFindings := by
    intro r hr file source v hv
    simp only [twice, List.mem_cons, List.not_mem_nil, or_false] at hr
    rcases hr with rfl | rfl
    · rw [List.mem_singleton.mp hv]
      rfl
    · rw [List.mem_singleton.mp hv]
      rfl
  have off : (({} : Config)).SwitchesOff "once" onlyAgain := by
    refine ⟨by decide, fun other different => ?_, rfl⟩
    simp [Config.rule?, onlyAgain, List.lookup_cons, beq_eq_false_iff_ne.mpr different]
  have exactly : ∀ r ∈ twice.rules, CommandLine.keeps ["again"] r = true ↔ r.name ≠ "once" := by
    intro r hr
    simp only [twice, List.mem_cons, List.not_mem_nil, or_false] at hr
    rcases hr with rfl | rfl <;> decide
  have permuted : twice.rules.Perm [again, once] := List.Perm.swap again once []
  obtain ⟨switched, named, reordered, program⟩ :=
    rules_independent twice signed "once" treeOfTexts
  obtain ⟨programSwitched, programNamed⟩ := program ⟨treeOfTexts, "/p"⟩ {} "." []
  refine ⟨signed, off, permuted, switched onlyAgain off, ?_, reordered _ permuted,
    programSwitched onlyAgain off none, programNamed ["CL001"] ?_⟩
  · exact named ["again"] exactly
  · intro r member
    obtain rfl : r = LongChain.toRule {} := List.mem_singleton.mp member
    decide

end Analyzer

end SwitchLint
