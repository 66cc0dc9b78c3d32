import SwitchLint.Proofs.AlikeChecks
import SwitchLint.Proofs.ReportText

/-!
What a check that comes to its end tells, and in how many ways: by its exit status, by the findings that
it lists, and by the numbers and the colour of the summary. They never disagree, and a higher threshold
never makes a check fail that has passed.
-/

namespace SwitchLint

namespace Report

/-- The severities of the findings, one by one. -/
def severities (r : Report) : List Severity := r.violations.map (·.severity)

variable (r : Report)

theorem hasAtLeast_iff (threshold : Severity) :
    r.hasAtLeast threshold = true ↔ ∃ v ∈ r.violations, threshold.rank ≤ v.severity.rank := by
  simp [hasAtLeast, Severity.atLeast]

theorem hasAtLeast_of_lower {threshold threshold' : Severity} (lower : threshold.rank ≤ threshold'.rank)
    (found : r.hasAtLeast threshold' = true) : r.hasAtLeast threshold = true := by
  obtain ⟨v, listed, grave⟩ := (r.hasAtLeast_iff threshold').mp found
  exact (r.hasAtLeast_iff threshold).mpr ⟨v, listed, Nat.le_trans lower grave⟩

theorem count_eq (s : Severity) : r.count s = r.severities.count s := by
  rw [count, severities, List.count, List.countP_map]
  rfl

theorem mem_severities (s : Severity) : s ∈ r.severities ↔ ∃ v ∈ r.violations, v.severity = s := by
  simp [severities]

/-- Every finding is counted once. -/
theorem counts_add_up (severities : List Severity) :
    severities.count .error + severities.count .warning + severities.count .info =
      severities.length := by
  induction severities with
  | nil => rfl
  | cons s severities ih =>
    cases s <;> simp <;> omega

theorem hasErrors_iff : r.hasAtLeast .error = true ↔ 0 < r.severities.count .error := by
  rw [List.count_pos_iff, mem_severities, hasAtLeast_iff]
  refine exists_congr fun v => and_congr_right fun _ => ?_
  cases v.severity <;> decide

theorem hasWarnings_iff : r.hasAtLeast .warning = true ↔
    0 < r.severities.count .error ∨ 0 < r.severities.count .warning := by
  rw [List.count_pos_iff, List.count_pos_iff, mem_severities, mem_severities, hasAtLeast_iff,
    ← exists_or]
  refine exists_congr fun v => ?_
  rw [← and_or_left]
  refine and_congr_right fun _ => ?_
  cases v.severity <;> decide

/-- The colour tells which of the first two numbers is positive, the first before the second. -/
theorem colour_iff :
    (r.colour = .red ↔ 0 < r.severities.count .error) ∧
    (r.colour = .yellow ↔ r.severities.count .error = 0 ∧ 0 < r.severities.count .warning) ∧
    (r.colour = .green ↔ r.severities.count .error = 0 ∧ r.severities.count .warning = 0) := by
  have errors := r.hasErrors_iff
  have warnings := r.hasWarnings_iff
  unfold colour
  split
  · have some := errors.mp ‹_›
    exact ⟨⟨fun _ => some, fun _ => rfl⟩, ⟨nofun, fun h => by omega⟩, ⟨nofun, fun h => by omega⟩⟩
  rename_i noError
  rw [errors] at noError
  split
  · have some := warnings.mp ‹_›
    exact ⟨⟨nofun, fun h => absurd h noError⟩, ⟨fun _ => by omega, fun _ => rfl⟩,
      ⟨nofun, fun h => by omega⟩⟩
  · rename_i noWarning
    rw [warnings] at noWarning
    exact ⟨⟨nofun, fun h => absurd h noError⟩, ⟨nofun, fun h => by omega⟩,
      ⟨fun _ => by omega, fun _ => rfl⟩⟩

/-- What is printed as JSON lists the findings, and is read back as such. -/
theorem ofText_renderJson {r : Report} (bounded : r.Bounded) : ofText (r.render .json) = .ok r := by
  have read := (JsonValue.ofText_text (exact_toJson bounded 123)).2
  rw [ofText, render, renderJson, read]
  simp only [ofJson_toJson]
  rfl

end Report

namespace CommandLine

variable {s : Surroundings} {args : List String} {path : String} {format : OutputFormat}
  {names : Option (List String)} {excludes : List String} {given : Option String} {config : Config}
  {report : Report}

theorem run_of_check (asked : parse args = .ok ⟨.check path format names excludes, given⟩)
    (checked : check s given path names excludes = .ok (config, report)) :
    run s args =
      { status := if report.hasAtLeast config.threshold then failed else 0
        stdout := report.render format
        workspace := s.workspace } := by
  simp only [run, asked, perform, checked]

theorem status_iff (asked : parse args = .ok ⟨.check path format names excludes, given⟩)
    (checked : check s given path names excludes = .ok (config, report)) :
    ((run s args).status = 1 ↔ report.hasAtLeast config.threshold = true) ∧
    ((run s args).status = 0 ↔ report.hasAtLeast config.threshold = false) := by
  rw [run_of_check asked checked]
  cases report.hasAtLeast config.threshold <;> simp [failed]

theorem checkWith_of_check (checked : check s given path names excludes = .ok (config, report)) :
    checkWith s.workspace config path names excludes = .ok report := by
  rw [check] at checked
  cases read : Config.ofSource s.workspace
      (ConfigSource.resolve s.workspace path given s.globalDirectory) with
  | error e => simp [read] at checked
  | ok config' =>
    simp only [read] at checked
    cases outcome : checkWith s.workspace config' path names excludes with
    | error f => simp [outcome, Except.map] at checked
    | ok report' =>
      rw [outcome] at checked
      obtain ⟨rfl, rfl⟩ := Prod.mk.inj (Except.ok.inj checked)
      exact outcome

/-- Settings that differ in the threshold only come to the same report, also where they stand in a file of
the tree. -/
theorem report_of_alike {s' : Surroundings} {given' : Option String} {config' : Config}
    {report' : Report} (seen : SeesAlike s.workspace s'.workspace) (alike : config.RunsAlike config')
    (checked : check s given path names excludes = .ok (config, report))
    (checked' : check s' given' path names excludes = .ok (config', report')) : report' = report := by
  have done := checkWith_of_check checked
  have done' := checkWith_of_check checked'
  rw [checkWith_runsAlike _ alike] at done'
  obtain ⟨found, discovered⟩ := discovered_of_checkWith done
  obtain ⟨found', discovered'⟩ := discovered_of_checkWith done'
  rw [Workspace.absolute, seen.directory] at discovered'
  rw [checkWith_seesAlike seen discovered discovered', done] at done'
  exact (Except.ok.inj done').symm

/-- Of a check that comes to its end, the exit status, the findings that are listed and the summary tell
the same. The form of the output has no part in the status; the status is 1 exactly when a finding is
listed at the threshold or above; the summary has the numbers of the listed findings, which add up, and
the colour of the gravest; and under a higher threshold a check that has passed still passes. -/
theorem status_agrees_with_listing
    (asked : parse args = .ok ⟨.check path format names excludes, given⟩)
    (checked : check s given path names excludes = .ok (config, report)) :
    (∀ format' args', parse args' = .ok ⟨.check path format' names excludes, given⟩ →
      (run s args').status = (run s args).status ∧ (run s args').stdout = report.render format') ∧
    (report.render .json = (JsonValue.object
        [("violations", .array (report.violations.map Violation.toJson)),
          ("files_checked", .integer report.filesChecked)]).text ++ "\n" ∧
      (report.Bounded → Report.ofText (report.render .json) = .ok report)) ∧
    ((run s args).status = 1 ↔
      ∃ v ∈ report.violations, (config.failOn.getD .error).rank ≤ v.severity.rank) ∧
    ((run s args).status = 0 ↔
      ∀ v ∈ report.violations, v.severity.rank < (config.failOn.getD .error).rank) ∧
    (∃ errors warnings infos shown,
      report.render .text = shown ++ report.colour.code ++
        (s!"Found {errors} error(s), {warnings} warning(s), {infos} info(s) " ++
          s!"in {report.filesChecked} file(s)") ++ "\x1b[0m\n" ∧
      errors = report.severities.count .error ∧ warnings = report.severities.count .warning ∧
      infos = report.severities.count .info ∧ errors + warnings + infos = report.violations.length ∧
      (report.colour = .red ↔ 0 < errors) ∧
      (report.colour = .yellow ↔ errors = 0 ∧ 0 < warnings) ∧
      (report.colour = .green ↔ errors = 0 ∧ warnings = 0)) ∧
    ∀ s' args' format' given' config' report', SeesAlike s.workspace s'.workspace →
      parse args' = .ok ⟨.check path format' names excludes, given'⟩ →
      check s' given' path names excludes = .ok (config', report') → config.RunsAlike config' →
      config.threshold.rank ≤ config'.threshold.rank →
      report' = report ∧ ((run s args).status = 0 → (run s' args').status = 0) := by
  have status := status_iff asked checked
  refine ⟨fun format' args' asked' => ?_, ⟨rfl, Report.ofText_renderJson⟩, ?_, ?_, ?_, ?_⟩
  · rw [run_of_check asked checked, run_of_check asked' checked]
    exact ⟨rfl, rfl⟩
  · rw [status.1, Report.hasAtLeast_iff, Config.threshold]
  · rw [status.2, ← Bool.not_eq_true, Report.hasAtLeast_iff, Config.threshold]
    simp
  · have sum := Report.counts_add_up report.severities
    have length : report.severities.length = report.violations.length := List.length_map _
    rw [length] at sum
    obtain ⟨red, yellow, green⟩ := report.colour_iff
    refine ⟨_, _, _, String.join (report.violations.map fun v => v.paragraph ++ "\n"), ?_, rfl, rfl, rfl,
      sum, red, yellow, green⟩
    rw [Report.render, Report.renderText, Report.summary, report.count_eq, report.count_eq,
      report.count_eq]
  · intro s' args' format' given' config' report' seen asked' checked' alike higher
    have same := report_of_alike seen alike checked checked'
    refine ⟨same, fun passed => ?_⟩
    rw [(status_iff asked' checked').2, same]
    rw [status.2] at passed
    rw [← Bool.not_eq_true] at passed ⊢
    exact fun found => passed (report.hasAtLeast_of_lower higher found)

/-- A project with one finding, of severity info, and the threshold in its settings. -/
def graded (threshold : Severity) : Surroundings where
  workspace :=
    { directory := "/p"
      files := .directory [("p", .directory
        [("chainlint.toml", .file (.text (s!"fail_on = \x22{threshold.name}\x22\n" ++
            "[analyzer]\nexclude = []\n[rules.long-chain]\nseverity = \x22info\x22\n"))),
          ("a.go", .file (.text Analyzer.loneSource))])] }
  globalDirectory := none

def gradedConfig (threshold : Severity) : Config where
  scope := ⟨".", [], true⟩
  rules := [(LongChain.name, { severity := some .info })]
  failOn := some threshold

def gradedReport : Report := ⟨[{ Analyzer.loneFinding "a.go" with severity := .info }], 1⟩

/-- Are these the settings, as far as that can be decided? -/
def isGraded (threshold : Severity) (c : Config) : Bool :=
  c.scope = ⟨".", [], true⟩ && c.failOn = some threshold &&
    match c.rules with
    | [(name, ⟨none, some .info, []⟩)] => name = LongChain.name
    | _ => false

theorem load_graded (threshold : Severity) :
    Config.load (graded threshold).workspace "./chainlint.toml" = .ok (gradedConfig threshold) := by
  have read : (Config.load (graded threshold).workspace "./chainlint.toml").toOption.map
      (isGraded threshold) = some true := by
    cases threshold <;> decide +kernel
  obtain ⟨⟨scope, rules, failOn⟩, loaded, same⟩ := Option.map_eq_some_iff.mp read
  simp only [isGraded, Bool.and_eq_true, decide_eq_true_eq] at same
  obtain ⟨⟨rfl, rfl⟩, same⟩ := same
  split at same
  · obtain rfl := of_decide_eq_true same
    cases outcome : Config.load (graded threshold).workspace "./chainlint.toml" with
    | error e => simp [outcome, Except.toOption] at loaded
    | ok config =>
      rw [outcome] at loaded
      exact congrArg Except.ok (Option.some.inj loaded)
  · cases same

theorem check_graded (threshold : Severity) :
    check (graded threshold) none "." none [] = .ok (gradedConfig threshold, gradedReport) := by
  have source : (ConfigSource.resolve (graded threshold).workspace "." none none).path? =
      some "./chainlint.toml" := by
    cases threshold <;> decide +kernel
  have read : Config.ofSource (graded threshold).workspace
      (ConfigSource.resolve (graded threshold).workspace "." none none) =
        .ok (gradedConfig threshold) := by
    simp [Config.ofSource, source, load_graded]
  have checked : checkWith (graded threshold).workspace (gradedConfig threshold) "." none [] =
      .ok gradedReport := by
    refine checkWith_of_steps []
      [("/p/./chainlint.toml", .text (s!"fail_on = \x22{threshold.name}\x22\n" ++
          "[analyzer]\nexclude = []\n[rules.long-chain]\nseverity = \x22info\x22\n")),
        ("/p/./a.go", .text Analyzer.loneSource)]
      [("/p/./a.go", .text Analyzer.loneSource)] rfl ?_ ?_ ?_ ?_ ?_
    · cases threshold <;> decide +kernel
    · cases threshold <;> decide +kernel
    · decide
    · cases threshold <;> decide +kernel
    · decide
  rw [check]
  simp only [graded] at read checked ⊢
  simp [read, checked, Except.map]

theorem graded_proper (threshold : Severity) : (graded threshold).workspace.files.Proper := by
  have names : ∀ name ∈ ["p", "chainlint.toml", "a.go"], IsName name := by decide
  simp [graded, FileTree.Proper, FileTree.ProperEntries, names]

/-- The settings stand in a file that no check reads as a source or as an ignore file. -/
theorem graded_alike (threshold threshold' : Severity) :
    SeesAlike (graded threshold).workspace (graded threshold').workspace := by
  refine ⟨rfl, graded_proper threshold, graded_proper threshold', ?_⟩
  have unread : mayRead "chainlint.toml" = false := by decide
  simp [graded, FileTree.keeping, FileTree.keepingIn, FileTree.isDirectory, unread]

/-- With a finding of severity info, the threshold warning is passed, and so is error. -/
theorem status_agrees_with_listing_graded :
    parse ["check"] = .ok ⟨.check "." .text none [], none⟩ ∧
      check (graded .warning) none "." none [] = .ok (gradedConfig .warning, gradedReport) ∧
      (run (graded .warning) ["check"]).status = 0 ∧ (run (graded .error) ["check"]).status = 0 ∧
      (run (graded .info) ["check"]).status = 1 := by
  have tells := status_agrees_with_listing check_asked (check_graded .warning)
  obtain ⟨-, -, -, passes, -, raised⟩ := tells
  have passed : (run (graded .warning) ["check"]).status = 0 := passes.mpr (by decide)
  obtain ⟨-, -, fails, -⟩ := status_agrees_with_listing check_asked (check_graded .info)
  have alike : (gradedConfig .warning).RunsAlike (gradedConfig .error) :=
    ⟨rfl, rfl, fun _ => rfl, fun _ => rfl⟩
  obtain ⟨-, still⟩ := raised (graded .error) ["check"] .text none _ _ (graded_alike .warning .error)
    check_asked (check_graded .error) alike (by decide)
  exact ⟨check_asked, check_graded .warning, passed, still passed, fails.mpr (by decide)⟩

end CommandLine

end SwitchLint
