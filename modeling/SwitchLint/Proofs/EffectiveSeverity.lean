import Mathlib.Data.List.Forall2
import SwitchLint.Analysis.Analyzer
import SwitchLint.Proofs.Walk
import SwitchLint.Rule.Registry

/-!
How grave what the rule reports is in the end. The settings are applied twice: to the rule, which decides
whether a comment owes a reason, and to its findings. Notices stay warnings on either way.
-/

namespace SwitchLint.LongChain

/-! ### What kinds of reports there are -/

/-- The report says that a chain is repeated. -/
def IsFinding (v : Violation) : Prop := ∃ chain, v.message = message chain

/-- The report says that a comment lacks its reason. -/
def IsNotice (v : Violation) : Prop := v.message = (missingReason v.location).message

theorem message_head (chain : String) : (message chain).toList.head? = some 'E' := by
  unfold message
  rw [String.toList_append, String.toList_append]
  rfl

theorem notice_head (location : Location) :
    (missingReason location).message.toList.head? = some 'A' := by
  dsimp only [missingReason]
  rw [String.toList_append, String.toList_append]
  rfl

theorem message_ne_notice (chain : String) (location : Location) :
    message chain ≠ (missingReason location).message := by
  intro same
  have heads := notice_head location
  rw [← same, message_head] at heads
  cases heads

theorem outcome_kind (rule : LongChain) (file : FileContext) (clauses : List Clause) (span : Span)
    (v : Violation) (member : v ∈ rule.outcome file clauses span) :
    (IsFinding v ∧ ¬ IsNotice v ∧ v.severity = rule.severity) ∨
      (IsNotice v ∧ ¬ IsFinding v ∧ v.severity = .warning ∧ rule.severity = .error) := by
  unfold outcome at member
  split at member
  · cases member
  · obtain rfl := List.mem_singleton.mp member
    exact .inl ⟨⟨_, rfl⟩, message_ne_notice _ _, rfl⟩
  · cases member
  · split at member
    · rename_i grave
      obtain rfl := List.mem_singleton.mp member
      refine .inr ⟨rfl, ?_, rfl, grave⟩
      rintro ⟨chain, same⟩
      exact message_ne_notice chain _ same.symm
    · cases member

theorem check_kind (rule : LongChain) (file : FileContext) (source : SourceFile) (v : Violation)
    (member : v ∈ rule.check file source) :
    (IsFinding v ∧ ¬ IsNotice v ∧ v.severity = rule.severity) ∨
      (IsNotice v ∧ ¬ IsFinding v ∧ v.severity = .warning ∧ rule.severity = .error) := by
  rw [check_eq] at member
  obtain ⟨_, _, member⟩ := List.mem_flatMap.mp member
  obtain ⟨_, _, member⟩ := List.mem_flatMap.mp member
  exact rule.outcome_kind file _ _ v member

/-! ### The settings applied to the findings -/

/-- The report is the rule's own but for its severity: a finding has the given one, a notice is a
warning. -/
structure Graded (severity : Severity) (own v : Violation) : Prop where
  same : v = { own with severity := v.severity }
  kind : IsFinding own ∨ IsNotice own
  finding : IsFinding own → v.severity = severity
  notice : IsNotice own → v.severity = .warning

theorem override_graded (rule : LongChain) (file : FileContext) (source : SourceFile)
    (new : Option Severity) (v : Violation) (member : v ∈ rule.check file source) :
    Graded (new.getD rule.severity) v (Analyzer.overrideSeverity rule.severity new v) := by
  rcases rule.check_kind file source v member with ⟨finding, notNotice, own⟩ |
    ⟨notice, notFinding, warning, grave⟩
  · have graded : (Analyzer.overrideSeverity rule.severity new v) =
        { v with severity := new.getD rule.severity } := by
      cases new with
      | none => simp [Analyzer.overrideSeverity, ← own]
      | some s => simp [Analyzer.overrideSeverity, own]
    rw [graded]
    exact ⟨rfl, .inl finding, fun _ => rfl, fun notice => absurd notice notNotice⟩
  · -- A notice is a warning of a rule whose own severity is another.
    have kept : Analyzer.overrideSeverity rule.severity new v = v := by
      cases new with
      | none => rfl
      | some s => simp [Analyzer.overrideSeverity, warning, grave]
    rw [kept]
    exact ⟨rfl, .inr notice, fun finding => absurd finding notFinding, fun _ => warning⟩

/-- What one rule alone finds in a text. -/
theorem checkSource_alone (a : Analyzer) (path content : String) (source : SourceFile) (rule : Rule)
    (accepted : a.language.parse content = .ok source) (enabled : a.config.isEnabled rule.name = true) :
    Analyzer.checkSource { a with rules := [rule] } path content =
      .ok ((rule.check (.ofPath path content a.root) source).map
        (Analyzer.overrideSeverity rule.severity (a.config.severity? rule.name))) := by
  simp [Analyzer.checkSource, accepted, Analyzer.runRule, enabled]

/-! ### Settings of nothing but a severity -/

/-- The rule as settings of nothing but a severity make it. -/
def graded (severity : Severity) : LongChain := { severity }

/-- What the rule with its default settings says of a switch, with another severity. -/
def regraded (severity : Severity) (file : FileContext) (clauses : List Clause) (span : Span) :
    List Violation :=
  (({} : LongChain).outcome file clauses span).map fun v => { v with severity }

/-- Does the comment at a switch owe a reason that it does not give? -/
def Owes (severity : Severity) (content : String) (clauses : List Clause) (span : Span) : Prop :=
  severity = .error ∧ (({} : LongChain).scan clauses).isSome = true ∧
    Allowance.check content span.line name = .allowed none

instance (severity : Severity) (content : String) (clauses : List Clause) (span : Span) :
    Decidable (Owes severity content clauses span) :=
  inferInstanceAs (Decidable (_ ∧ _ ∧ _))

theorem regraded_of_owes (severity : Severity) (file : FileContext) (clauses : List Clause) (span : Span)
    (owes : Owes severity file.content clauses span) : regraded severity file clauses span = [] := by
  obtain ⟨-, reportable, allowed⟩ := owes
  obtain ⟨shared, reported⟩ := Option.isSome_iff_exists.mp reportable
  simp [regraded, outcome, reported, allowed]

theorem graded_outcome (severity : Severity) (file : FileContext) (clauses : List Clause) (span : Span) :
    (graded severity).outcome file clauses span =
      if Owes severity file.content clauses span then [missingReason (.ofSpan file.path span)]
      else regraded severity file clauses span := by
  have sameScan : (graded severity).scan clauses = ({} : LongChain).scan clauses := rfl
  have own : (graded severity).severity = severity := rfl
  cases reported : ({} : LongChain).scan clauses with
  | none => simp [regraded, outcome, Owes, sameScan, reported]
  | some shared =>
    cases allowance : Allowance.check file.content span.line name with
    | denied => simp [regraded, outcome, Owes, sameScan, reported, allowance, finding, own]
    | allowed reason =>
      cases reason with
      | some text => simp [regraded, outcome, Owes, sameScan, reported, allowance]
      | none => simp [regraded, outcome, Owes, sameScan, reported, allowance, own]

theorem override_outcome (severity : Severity) (file : FileContext) (clauses : List Clause)
    (span : Span) :
    (({} : LongChain).outcome file clauses span).map (Analyzer.overrideSeverity .warning (some severity)) =
      regraded severity file clauses span := by
  refine List.map_congr_left fun v member => ?_
  rcases outcome_kind {} file clauses span v member with ⟨-, -, own⟩ | ⟨-, -, -, grave⟩
  · exact if_pos own
  · cases grave

/-- The analyzer gives the severity that the rule has been given already. -/
theorem override_own (severity : Severity) (v : Violation) :
    Analyzer.overrideSeverity severity (some severity) v = v := by
  unfold Analyzer.overrideSeverity
  dsimp only
  split
  · rename_i own
    rw [← own]
  · rfl

/-- The switches of a file that the rule looks at by default, body by body. -/
def switches (source : SourceFile) : List (List Nat × List Clause × Span) :=
  (source.functions.filterMap Function.body).flatMap ({} : LongChain).visited

theorem check_switches (severity : Severity) (file : FileContext) (source : SourceFile) :
    (graded severity).check file source =
      (switches source).flatMap fun (_, clauses, span) => (graded severity).outcome file clauses span := by
  rw [check_eq, switches, List.flatMap_assoc]
  rfl

theorem default_check (a : Analyzer) (path content : String) (source : SourceFile) (severity : Severity)
    (accepted : a.language.parse content = .ok source)
    (settings : a.config.rule? name = some { severity := some severity }) :
    Analyzer.checkSource { a with rules := [({} : LongChain).toRule] } path content =
      .ok ((switches source).flatMap fun (_, clauses, span) =>
        regraded severity (.ofPath path content a.root) clauses span) := by
  have enabled : a.config.isEnabled name = true := by simp [Config.isEnabled, settings]
  have given : a.config.severity? name = some severity := by simp [Config.severity?, settings]
  rw [checkSource_alone a path content source _ accepted enabled]
  change Except.ok ((({} : LongChain).check _ source).map
    (Analyzer.overrideSeverity .warning (a.config.severity? name))) = _
  have outcomes := check_switches .warning (.ofPath path content a.root) source
  change ({} : LongChain).check _ _ = _ at outcomes
  rw [given, outcomes, List.map_flatMap]
  simp only [← override_outcome]
  rfl

theorem configured_check (a : Analyzer) (path content : String) (source : SourceFile)
    (severity : Severity) (accepted : a.language.parse content = .ok source)
    (settings : a.config.rule? name = some { severity := some severity }) :
    Analyzer.checkSource { a with rules := Rule.configured a.config } path content =
      .ok ((switches source).flatMap fun (_, clauses, span) =>
        if Owes severity content clauses span then
          [missingReason (.ofSpan (FileContext.ofPath path content a.root).path span)]
        else regraded severity (.ofPath path content a.root) clauses span) := by
  have enabled : a.config.isEnabled name = true := by simp [Config.isEnabled, settings]
  have given : a.config.severity? name = some severity := by simp [Config.severity?, settings]
  have rules : Rule.configured a.config = [(graded severity).toRule] := by
    simp only [Rule.configured, enabled, settings, if_true]
    rfl
  rw [rules, checkSource_alone a path content source _ accepted enabled]
  change Except.ok (((graded severity).check _ source).map
    (Analyzer.overrideSeverity severity (a.config.severity? name))) = _
  rw [given, List.map_congr_left fun v _ => override_own severity v, List.map_id', check_switches]
  simp only [graded_outcome]
  rfl

/-! ### Both together -/

/-- The severity of what is reported in the end.

If the rule is enabled, the report is the rule's own but for the severities: findings have that of the
settings, or else that of the rule, and notices are warnings.

Under settings of nothing but a severity, the rule that is made from the settings reports the same as the
rule with its defaults, but for the switches at which a comment owes a reason: there it adds one notice,
while the other is silent. -/
theorem effective_severity (a : Analyzer) (path content : String) (source : SourceFile)
    (accepted : a.language.parse content = .ok source) :
    (∀ rule : LongChain, a.config.isEnabled name = true →
      ∃ found, Analyzer.checkSource { a with rules := [rule.toRule] } path content = .ok found ∧
        List.Forall₂ (Graded ((a.config.severity? name).getD rule.severity))
          (rule.check (.ofPath path content a.root) source) found) ∧
    ∀ severity, a.config.rule? name = some { severity := some severity } →
      let file := FileContext.ofPath path content a.root
      Analyzer.checkSource { a with rules := [({} : LongChain).toRule] } path content =
        .ok ((switches source).flatMap fun (_, clauses, span) =>
          regraded severity file clauses span) ∧
      Analyzer.checkSource { a with rules := Rule.configured a.config } path content =
        .ok ((switches source).flatMap fun (_, clauses, span) =>
          if Owes severity content clauses span then [missingReason (.ofSpan file.path span)]
          else regraded severity file clauses span) ∧
      ∀ clauses span, Owes severity content clauses span → regraded severity file clauses span = [] := by
  constructor
  · intro rule enabled
    refine ⟨_, checkSource_alone a path content source rule.toRule accepted enabled, ?_⟩
    change List.Forall₂ _ _ ((rule.check (.ofPath path content a.root) source).map _)
    rw [List.forall₂_map_right_iff, List.forall₂_same]
    intro v member
    exact rule.override_graded _ source _ v member
  · intro severity settings
    exact ⟨default_check a path content source severity accepted settings,
      configured_check a path content source severity accepted settings,
      fun clauses span owes => regraded_of_owes severity _ clauses span owes⟩

/-- `a.b.c.d` -/
def selection : Expr :=
  ["b", "c", "d"].foldl (fun base field => base.select (.ident field .zero)) (.ident "a" .zero)

def repeatingClauses : List Clause := [.mk (some [selection, selection]) [] .zero]

def place : Span := ⟨32, 38, 2, 1⟩

/-- A function with a switch that repeats a chain. -/
def repeating : SourceFile :=
  ⟨[.function ⟨"f", some (.mk [.switch repeatingClauses place] .zero), .zero⟩]⟩

/-- Findings are errors, and every text is read as `repeating`. -/
def strict : Analyzer where
  root := "/p"
  rules := []
  language := ⟨["txt"], fun _ => .ok repeating⟩
  exclusions := []
  config := { rules := [(name, { severity := some .error })] }
  failOnParseError := false

def withoutReason : String := "// chainlint: allow(long-chain)\nswitch"

theorem effective_severity_without_reason :
    strict.language.parse withoutReason = .ok repeating ∧ strict.config.isEnabled name = true ∧
      strict.config.rule? name = some { severity := some .error } ∧
      Analyzer.checkSource { strict with rules := [({} : LongChain).toRule] } "/p/a.txt" withoutReason =
        .ok [] ∧
      Analyzer.checkSource { strict with rules := Rule.configured strict.config } "/p/a.txt"
        withoutReason = .ok [missingReason ⟨"a.txt", 2, 1, 32, 6⟩] := by
  have settings : strict.config.rule? name = some { severity := some .error } := rfl
  obtain ⟨plain, configured, silent⟩ :=
    (effective_severity strict "/p/a.txt" withoutReason repeating rfl).2 .error settings
  have visits : switches repeating = [([0], repeatingClauses, place)] := rfl
  have owes : Owes .error withoutReason repeatingClauses place := ⟨rfl, rfl, by decide⟩
  rw [visits] at plain configured
  refine ⟨rfl, rfl, settings, ?_, ?_⟩
  · rw [plain, List.flatMap_singleton]
    exact congrArg Except.ok (silent _ _ owes)
  · rw [configured, List.flatMap_singleton]
    exact congrArg Except.ok (if_pos owes)

end SwitchLint.LongChain
