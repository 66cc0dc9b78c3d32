import SwitchLint.Proofs.AlikeChecks
import SwitchLint.Proofs.Exclusions
import SwitchLint.Proofs.LastSetting

/-!
Putting an analyzer together step by step. What comes of the steps are the last word on each of its
settings, its rules in order, and its patterns as a set; in which order the steps stand, and whether a
pattern is given by a step or by the settings, makes no difference to what a check reports.
-/

namespace SwitchLint

/-- The settings but for their patterns. -/
def Config.withoutPatterns (c : Config) : Config := { c with scope := { c.scope with exclude := [] } }

namespace Analyzer

/-! ### Other patterns -/

/-- Patterns matter only for which paths they leave out. -/
theorem analyze_withExclusions {a : Analyzer} {es : List Exclusion}
    (same : ∀ path, excluded es a.root path = excluded a.exclusions a.root path) (tree : FileTree) :
    analyze { a with exclusions := es } tree = a.analyze tree := by
  refine analyze_congr rfl rfl rfl (fun _ _ => rfl) fun found _ => ?_
  simp only [select, selects, same]

theorem select_eq_filter (a : Analyzer) (found : List (String × Content)) : a.select found =
    (found.mergeSort fun x y => Path.compare x.1 y.1 != .gt).filter fun f => a.selects f.1 := by
  rw [select]
  apply mergeSort_filter
  · exact fun f g h => not_gt_trans f.1 g.1 h.1
  · exact fun f g => not_gt_total f.1 g.1

/-- A file that is selected though more is left out is selected anyway. -/
theorem select_sublist {a b : Analyzer} (root : b.root = a.root) (language : b.language = a.language)
    (more : ∀ path, excluded a.exclusions a.root path = true → excluded b.exclusions a.root path = true)
    (found : List (String × Content)) : (b.select found).Sublist (a.select found) := by
  have fewer (path : String) (selected : b.selects path = true) : a.selects path = true := by
    rw [selects, Bool.and_eq_true] at selected ⊢
    refine ⟨by rw [← language]; exact selected.1, ?_⟩
    by_contra out
    have left := more path (by simpa using out)
    rw [← root] at left
    simp [left] at selected
  rw [select_eq_filter, select_eq_filter]
  exact List.monotone_filter_right _ fun f selected => fewer f.1 selected

/-- The files that count are the accepted ones among those selected. -/
theorem filesChecked_eq {a : Analyzer} {tree : FileTree} {r : Report} (done : a.analyze tree = .ok r) :
    ∃ found, tree.discover a.config.scope.respectGitignore a.root = .ok found ∧
      r.filesChecked = (a.select found).countP a.accepts := by
  rw [analyze] at done
  cases discovered : tree.discover a.config.scope.respectGitignore a.root with
  | error fault => simp [discovered] at done
  | ok found =>
    refine ⟨found, rfl, ?_⟩
    simp only [discovered] at done
    rcases a.first_or_none (a.select found) with goesOn | ⟨e, before, f, after, whole, goesOn, ends⟩
    · rw [a.checkFiles_of_none goesOn] at done
      rw [← Except.ok.inj done]
      rfl
    · rw [whole, a.checkFiles_of_first goesOn ends] at done
      cases done

namespace Plan

/-! ### What the steps say -/

namespace Step

def root? : Step → Option String
  | .root path => some path
  | _ => none

def language? : Step → Option Language
  | .language l => some l
  | _ => none

def config? : Step → Option Config
  | .config c => some c
  | _ => none

def failOnParseError? : Step → Option Bool
  | .failOnParseError fail => some fail
  | _ => none

def rules : Step → List Rule
  | .rule r => [r]
  | _ => []

def patterns : Step → List String
  | .exclude pattern => [pattern]
  | .excludes patterns => patterns
  | _ => []

end Step

/-- A step says one thing, and the plan takes it over. -/
theorem add_eq (p : Plan) (step : Step) : p.add step =
    { root := step.root?.or p.root
      rules := p.rules ++ step.rules
      language := step.language?.or p.language
      excludes := p.excludes ++ step.patterns
      config := step.config?.or p.config
      failOnParseError := step.failOnParseError?.getD p.failOnParseError } := by
  cases step <;> simp [add, Step.root?, Step.rules, Step.language?, Step.patterns, Step.config?,
    Step.failOnParseError?]

/-- Of a run of steps the plan holds the last words, and all rules and patterns in order. -/
theorem ofSteps_eq (steps : List Step) : ofSteps steps =
    { root := lastGiven Step.root? steps
      rules := steps.flatMap Step.rules
      language := lastGiven Step.language? steps
      excludes := steps.flatMap Step.patterns
      config := lastGiven Step.config? steps
      failOnParseError := (lastGiven Step.failOnParseError? steps).getD false } := by
  induction steps using List.reverseRecOn with
  | nil => rfl
  | append_singleton steps step ih =>
    have alone {α : Type} (given : Step → Option α) : lastGiven given [step] = given step :=
      (lastGiven_cons step []).trans (Option.none_or)
    rw [ofSteps, List.foldl_append, ← ofSteps, ih, List.foldl_cons, List.foldl_nil, add_eq]
    simp only [lastGiven_append, alone, List.flatMap_append, List.flatMap_singleton]
    cases step.failOnParseError? <;> rfl

end Plan

/-- The settings that hold after the steps. -/
def settingsOf (steps : List Plan.Step) : Config := (lastGiven Plan.Step.config? steps).getD {}

/-- All patterns that hold after the steps: those given and those of the settings. -/
def patternsOf (steps : List Plan.Step) : List String :=
  steps.flatMap Plan.Step.patterns ++ (settingsOf steps).scope.exclude

/-- The steps agree in all but the order and the patterns: the last root, language, settings (but for
their patterns) and word on files that cannot be parsed are the same, and so are the rules in order. -/
structure Agree (steps steps' : List Plan.Step) : Prop where
  root : lastGiven Plan.Step.root? steps' = lastGiven Plan.Step.root? steps
  language : lastGiven Plan.Step.language? steps' = lastGiven Plan.Step.language? steps
  settings : (settingsOf steps').withoutPatterns = (settingsOf steps).withoutPatterns
  failOnParseError : (lastGiven Plan.Step.failOnParseError? steps').getD false =
    (lastGiven Plan.Step.failOnParseError? steps).getD false
  rules : steps'.flatMap Plan.Step.rules = steps.flatMap Plan.Step.rules

namespace Plan

variable (directory : String)

/-- The analyzer of the steps, with those exclusions. -/
def assembled (steps : List Step) (language : Language) (exclusions : List Exclusion) : Analyzer where
  root := Path.append directory ((lastGiven Step.root? steps).getD (settingsOf steps).scope.root)
  rules := steps.flatMap Step.rules
  language := language
  exclusions := exclusions
  config := settingsOf steps
  failOnParseError := (lastGiven Step.failOnParseError? steps).getD false

theorem build_eq (steps : List Step) : (ofSteps steps).build directory =
    match lastGiven Step.language? steps with
    | none => .error .noLanguage
    | some language => (parseExclusions (patternsOf steps)).map (assembled directory steps language) := by
  have root : (ofSteps steps).rootFrom directory =
      Path.append directory ((lastGiven Step.root? steps).getD (settingsOf steps).scope.root) := by
    rw [rootFrom, ofSteps_eq, settingsOf]
    cases lastGiven Step.root? steps <;> cases lastGiven Step.config? steps <;> rfl
  rw [build, root, ofSteps_eq]
  cases lastGiven Step.language? steps with
  | none => rfl
  | some language =>
    change (parseExclusions (patternsOf steps) >>= fun es => _) = _
    cases parseExclusions (patternsOf steps) <;> rfl

/-- Steps come to an analyzer unless no language is given or a pattern is wrong. -/
theorem build_fails_iff (steps : List Step) :
    (∃ e, (ofSteps steps).build directory = .error e) ↔ lastGiven Step.language? steps = none ∨
      ∃ text ∈ patternsOf steps, ∃ fault, Glob.parse text = .error fault := by
  have wrong (text : String) : (¬ ∃ e, Exclusion.parse text = .ok e) ↔
      ∃ fault, Glob.parse text = .error fault := by
    rw [Exclusion.parse]
    cases Glob.parse text <;> simp [Except.map]
  have read := not_congr (parseExclusions_isOk_iff (patternsOf steps))
  simp only [not_forall, exists_prop, wrong] at read
  rw [build_eq, ← read]
  cases lastGiven Step.language? steps with
  | none => simp
  | some language => cases parseExclusions (patternsOf steps) <;> simp [Except.map]

theorem build_eq_ok {steps : List Step} {a : Analyzer} (built : (ofSteps steps).build directory = .ok a) :
    ∃ language es, lastGiven Step.language? steps = some language ∧
      parseExclusions (patternsOf steps) = .ok es ∧ a = assembled directory steps language es := by
  rw [build_eq] at built
  cases given : lastGiven Step.language? steps with
  | none => simp [given] at built
  | some language =>
    cases read : parseExclusions (patternsOf steps) with
    | error fault => simp [given, read, Except.map] at built
    | ok es =>
      simp only [given, read, Except.map, Except.ok.injEq] at built
      exact ⟨language, es, rfl, rfl, built.symm⟩

section Agreement

variable {steps steps' : List Step} (agree : Agree steps steps')
include agree

theorem root_of_agree (language : Language) (es es' : List Exclusion) :
    (assembled directory steps' language es').root = (assembled directory steps language es).root := by
  have own : (settingsOf steps').scope.root = (settingsOf steps).scope.root :=
    congrArg (·.scope.root) agree.settings
  rw [assembled, assembled, agree.root, own]

/-- Analyzers of steps that agree come to the same where the same paths are left out. -/
theorem analyze_of_agree (language : Language) {es es' : List Exclusion}
    (same : ∀ root path, excluded es' root path = excluded es root path) (tree : FileTree) :
    (assembled directory steps' language es').analyze tree =
      (assembled directory steps language es).analyze tree := by
  have same' (path : String) : excluded es (assembled directory steps' language es').root path =
      excluded (assembled directory steps' language es').exclusions
        (assembled directory steps' language es').root path := (same _ path).symm
  have exchanged : (assembled directory steps' language es').analyze tree =
      (assembled directory steps' language es).analyze tree := (analyze_withExclusions same' tree).symm
  let before := assembled directory steps language es
  let after := assembled directory steps' language es
  have rules : after.config.rules = before.config.rules := congrArg (·.rules) agree.settings
  have enabled (name : String) : after.config.isEnabled name = before.config.isEnabled name := by
    rw [Config.isEnabled, Config.isEnabled, Config.rule?, Config.rule?, rules]
  have severity (name : String) : after.config.severity? name = before.config.severity? name := by
    rw [Config.severity?, Config.severity?, Config.rule?, Config.rule?, rules]
  have alike : before.ReadsAlike after :=
    ⟨root_of_agree directory agree language es es, rfl, rfl,
      congrArg (·.scope.respectGitignore) agree.settings, agree.failOnParseError⟩
  rw [exchanged]
  refine analyze_of_findings alike tree fun file source => ?_
  have run : after.runRule file source = before.runRule file source := by
    funext r
    rw [runRule, runRule, enabled, severity]
  rw [run]
  exact congrArg (List.flatMap _) agree.rules

/-- With more patterns, the same files are found, and fewer of them are selected. -/
theorem select_of_agree (language : Language) {es es' : List Exclusion}
    (more : ∀ root path, excluded es root path = true → excluded es' root path = true)
    (found : List (String × Content)) :
    ((assembled directory steps' language es').select found).Sublist
      ((assembled directory steps language es).select found) :=
  select_sublist (root_of_agree directory agree language es es') rfl (more _) found

end Agreement

/-! ### What the steps come to -/

/-- Steps fail to make an analyzer exactly if no language is given or a pattern is wrong. Otherwise what a
check reports depends on the last root, language, settings and word on files that cannot be parsed, on the
rules in order, and on the patterns as a set. A further pattern never brings in a file. -/
theorem steps_come_to (steps : List Step) :
    ((∃ e, (ofSteps steps).build directory = .error e) ↔ lastGiven Step.language? steps = none ∨
      ∃ text ∈ patternsOf steps, ∃ fault, Glob.parse text = .error fault) ∧
    ∀ steps', Agree steps steps' →
      ((∀ text, text ∈ patternsOf steps' ↔ text ∈ patternsOf steps) →
        ((∃ e, (ofSteps steps').build directory = .error e) ↔
          ∃ e, (ofSteps steps).build directory = .error e) ∧
        ∀ a b, (ofSteps steps).build directory = .ok a → (ofSteps steps').build directory = .ok b →
          ∀ tree, b.analyze tree = a.analyze tree) ∧
      (patternsOf steps ⊆ patternsOf steps' →
        ∀ a b, (ofSteps steps).build directory = .ok a → (ofSteps steps').build directory = .ok b →
          ∀ tree : FileTree, tree.discover b.config.scope.respectGitignore b.root =
              tree.discover a.config.scope.respectGitignore a.root ∧
            (∀ found, (b.select found).Sublist (a.select found)) ∧
            ∀ r r', a.analyze tree = .ok r → b.analyze tree = .ok r' → r'.filesChecked ≤ r.filesChecked) := by
  refine ⟨build_fails_iff directory steps, fun steps' agree => ⟨fun same => ⟨?_, ?_⟩, ?_⟩⟩
  · rw [build_fails_iff, build_fails_iff, agree.language]
    simp only [same]
  · intro a b built built' tree
    obtain ⟨language, es, given, read, rfl⟩ := build_eq_ok directory built
    obtain ⟨language', es', given', read', rfl⟩ := build_eq_ok directory built'
    obtain rfl : language' = language := Option.some.inj (given'.symm.trans (agree.language.trans given))
    refine analyze_of_agree directory agree language' (fun root path => ?_) tree
    rw [Bool.eq_iff_iff]
    exact ⟨excluded_mono (fun text => (same text).mp) read' read,
      excluded_mono (fun text => (same text).mpr) read read'⟩
  · intro more a b built built' tree
    obtain ⟨language, es, given, read, rfl⟩ := build_eq_ok directory built
    obtain ⟨language', es', given', read', rfl⟩ := build_eq_ok directory built'
    obtain rfl : language' = language := Option.some.inj (given'.symm.trans (agree.language.trans given))
    have fewer := select_of_agree directory agree language'
      (fun root path => excluded_mono more read read')
    have root := root_of_agree directory agree language' es es'
    have git : (settingsOf steps').scope.respectGitignore = (settingsOf steps).scope.respectGitignore :=
      congrArg (·.scope.respectGitignore) agree.settings
    have discovered : tree.discover (assembled directory steps' language' es').config.scope.respectGitignore
        (assembled directory steps' language' es').root =
        tree.discover (assembled directory steps language' es).config.scope.respectGitignore
          (assembled directory steps language' es).root := by
      rw [root]
      exact congrArg (tree.discover · _) git
    refine ⟨discovered, fewer, fun r r' done done' => ?_⟩
    obtain ⟨found, there, count⟩ := filesChecked_eq done
    obtain ⟨found', there', count'⟩ := filesChecked_eq done'
    rw [discovered, there] at there'
    obtain rfl := Except.ok.inj there'
    rw [count, count']
    exact (fewer found).countP_le

/-- Patterns from the steps and from the settings. -/
def patternsApart : List Step :=
  [.language forTexts.language, .root "p", .rule once, .exclude "gen/**",
    .config { scope := ⟨".", ["**/vendor/**"], true⟩ }]

/-- The same patterns the other way round, one of them twice, in another order of the steps. -/
def patternsExchanged : List Step :=
  [.exclude "**/vendor/**", .root "q", .config { scope := ⟨".", ["gen/**"], true⟩ }, .rule once,
    .excludes ["gen/**", "**/vendor/**"], .language forTexts.language, .root "p"]

theorem steps_come_to_exchanged :
    Agree patternsApart patternsExchanged ∧
    (∀ text, text ∈ patternsOf patternsExchanged ↔ text ∈ patternsOf patternsApart) ∧
    ∃ a b, (ofSteps patternsApart).build "/w" = .ok a ∧ (ofSteps patternsExchanged).build "/w" = .ok b ∧
      ∀ tree, b.analyze tree = a.analyze tree := by
  have agree : Agree patternsApart patternsExchanged := ⟨rfl, rfl, rfl, rfl, rfl⟩
  have first : patternsOf patternsApart = ["gen/**", "**/vendor/**"] := rfl
  have second : patternsOf patternsExchanged = ["**/vendor/**", "gen/**", "**/vendor/**", "gen/**"] := rfl
  have same : ∀ text, text ∈ patternsOf patternsExchanged ↔ text ∈ patternsOf patternsApart := by
    intro text
    simp only [first, second, List.mem_cons, List.not_mem_nil, or_false]
    tauto
  have built : ((ofSteps patternsApart).build "/w").isOk = true := by decide
  have built' : ((ofSteps patternsExchanged).build "/w").isOk = true := by decide
  obtain ⟨-, alike⟩ := steps_come_to "/w" patternsApart
  refine ⟨agree, same, ?_⟩
  cases done : (ofSteps patternsApart).build "/w" with
  | error e => simp [done, Except.isOk, Except.toBool] at built
  | ok a =>
    cases done' : (ofSteps patternsExchanged).build "/w" with
    | error e => simp [done', Except.isOk, Except.toBool] at built'
    | ok b => exact ⟨a, b, rfl, rfl, ((alike _ agree).1 same).2 a b done done'⟩

end Plan

end Analyzer

end SwitchLint
