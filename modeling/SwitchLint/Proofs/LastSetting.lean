import SwitchLint.Rule.LongChain

/-!
Settings that are made one after the other. Each step may speak of some settings and be silent on the
others; of each setting the last step that speaks of it decides. For the rule against long chains this
holds setting by setting, and an option of the wrong type is as good as none.
-/

namespace SwitchLint

/-! ### The last word -/

section LastWord

variable {σ τ α : Type}

/-- The last value that one of the steps gives. -/
def lastGiven (given : σ → Option α) (steps : List σ) : Option α := (steps.filterMap given).getLast?

/-- The last step that sets anything sets this; if none does, it is the fallback. -/
def LastWord (sets : σ → α → Prop) (fallback : α) (steps : List σ) (a : α) : Prop :=
  (∃ before step after, steps = before ++ step :: after ∧ sets step a ∧
    ∀ later ∈ after, ∀ b, ¬ sets later b) ∨
  ((∀ step ∈ steps, ∀ b, ¬ sets step b) ∧ a = fallback)

variable {given : σ → Option α}

theorem lastGiven_nil : lastGiven given [] = none := rfl

theorem lastGiven_cons (step : σ) (steps : List σ) :
    lastGiven given (step :: steps) = (lastGiven given steps).or (given step) := by
  rw [lastGiven, lastGiven, List.filterMap_cons]
  cases given step with
  | none => simp
  | some a => rw [List.getLast?_cons]; cases (steps.filterMap given).getLast? <;> rfl

theorem lastGiven_append (steps more : List σ) :
    lastGiven given (steps ++ more) = (lastGiven given more).or (lastGiven given steps) := by
  rw [lastGiven, List.filterMap_append, List.getLast?_append, lastGiven, lastGiven]

theorem lastGiven_eq_none_iff (given : σ → Option α) (steps : List σ) :
    lastGiven given steps = none ↔ ∀ step ∈ steps, given step = none := by
  rw [lastGiven, List.getLast?_eq_none_iff, List.filterMap_eq_nil_iff]

theorem lastGiven_eq_some_iff (given : σ → Option α) (steps : List σ) (a : α) :
    lastGiven given steps = some a ↔ ∃ before step after, steps = before ++ step :: after ∧
      given step = some a ∧ ∀ later ∈ after, given later = none := by
  induction steps with
  | nil => simp [lastGiven_nil]
  | cons first steps ih =>
    rw [lastGiven_cons]
    constructor
    · intro last
      cases rest : lastGiven given steps with
      | some b =>
        rw [rest, Option.some_or] at last
        obtain ⟨before, step, after, rfl, own, silent⟩ := ih.mp (rest.trans last)
        exact ⟨first :: before, step, after, rfl, own, silent⟩
      | none =>
        rw [rest, Option.none_or] at last
        exact ⟨[], first, steps, rfl, last, (lastGiven_eq_none_iff given steps).mp rest⟩
    · rintro ⟨before, step, after, whole, own, silent⟩
      rcases List.cons_eq_append_iff.mp whole with ⟨rfl, same⟩ | ⟨before, rfl, rfl⟩
      · obtain ⟨rfl, rfl⟩ := List.cons.inj same
        rw [(lastGiven_eq_none_iff given after).mpr silent, Option.none_or, own]
      · rw [ih.mpr ⟨before, step, after, rfl, own, silent⟩, Option.some_or]

/-- Where each step sets what it gives and leaves the rest, a run sets the last that is given. -/
theorem foldl_lastGiven {apply : τ → σ → τ} (field : τ → α)
    (sets : ∀ s step, field (apply s step) = (given step).getD (field s)) (steps : List σ) (s : τ) :
    field (steps.foldl apply s) = (lastGiven given steps).getD (field s) := by
  induction steps generalizing s with
  | nil => rfl
  | cons step steps ih =>
    rw [List.foldl_cons, ih, sets, lastGiven_cons]
    cases lastGiven given steps <;> rfl

/-- A run comes to a value if and only if that is the last word on it. -/
theorem getD_lastGiven_iff {sets : σ → α → Prop} (gives : ∀ step a, given step = some a ↔ sets step a)
    (fallback : α) (steps : List σ) (a : α) :
    (lastGiven given steps).getD fallback = a ↔ LastWord sets fallback steps a := by
  have silent (step : σ) : given step = none ↔ ∀ b, ¬ sets step b := by
    rw [Option.eq_none_iff_forall_ne_some]
    exact forall_congr' fun b => not_congr (gives step b)
  have found := lastGiven_eq_some_iff given steps
  have nothing := lastGiven_eq_none_iff given steps
  simp only [silent, gives] at found nothing
  rw [LastWord, ← found, ← nothing]
  cases lastGiven given steps <;> simp [eq_comm]

end LastWord

namespace LongChain

/-! ### What a step sets -/

namespace Adjustment

/-- The step sets the threshold: by itself, or by an option that is an integer and not negative. -/
inductive SetsThreshold : Adjustment → Nat → Prop
  | itself (max : Nat) : SetsThreshold (.maxSharedSegments max) max
  | option {config : RuleConfig} {max : Nat} :
      config.options.lookup "max_shared_segments" = some (.integer max) →
      SetsThreshold (.configure config) max

/-- The step sets whether nested switches count: by itself, or by a boolean option. -/
inductive SetsNested : Adjustment → Bool → Prop
  | itself (recurse : Bool) : SetsNested (.recurseNested recurse) recurse
  | option {config : RuleConfig} {recurse : Bool} :
      config.options.lookup "recurse_nested" = some (.boolean recurse) →
      SetsNested (.configure config) recurse

/-- The step sets the severity: by itself, or by the severity of a block. -/
inductive SetsSeverity : Adjustment → Severity → Prop
  | itself (severity : Severity) : SetsSeverity (.severity severity) severity
  | block {config : RuleConfig} {severity : Severity} : config.severity = some severity →
      SetsSeverity (.configure config) severity

inductive SetsEquivalence : Adjustment → Equivalence → Prop
  | itself (equivalence : Equivalence) : SetsEquivalence (.equivalence equivalence) equivalence

def threshold? : Adjustment → Option Nat
  | .maxSharedSegments max => some max
  | .configure config => (config.option? "max_shared_segments").bind thresholdOf
  | _ => none

def nested? : Adjustment → Option Bool
  | .recurseNested recurse => some recurse
  | .configure config => (config.option? "recurse_nested").bind Toml.asBoolean
  | _ => none

def severity? : Adjustment → Option Severity
  | .severity s => some s
  | .configure config => config.severity
  | _ => none

def equivalence? : Adjustment → Option Equivalence
  | .equivalence e => some e
  | _ => none

theorem thresholdOf_eq_some_iff (value : Toml) (max : Nat) :
    thresholdOf value = some max ↔ value = .integer max := by
  constructor
  · intro set
    unfold thresholdOf at set
    split at set
    · rw [Option.some.inj set]
      rfl
    · cases set
  · rintro rfl
    rfl

theorem asBoolean_eq_some_iff (value : Toml) (b : Bool) :
    value.asBoolean = some b ↔ value = .boolean b := by
  cases value <;> simp [Toml.asBoolean]

theorem threshold_iff (step : Adjustment) (max : Nat) :
    step.threshold? = some max ↔ step.SetsThreshold max := by
  constructor
  · intro set
    cases step with
    | maxSharedSegments n =>
      obtain rfl : n = max := Option.some.inj set
      exact .itself n
    | configure config =>
      obtain ⟨value, there, read⟩ := Option.bind_eq_some_iff.mp set
      rw [thresholdOf_eq_some_iff] at read
      exact .option (read ▸ there)
    | _ => cases set
  · intro set
    cases set with
    | itself => rfl
    | option there =>
      exact Option.bind_eq_some_iff.mpr ⟨_, there, rfl⟩

theorem nested_iff (step : Adjustment) (recurse : Bool) :
    step.nested? = some recurse ↔ step.SetsNested recurse := by
  constructor
  · intro set
    cases step with
    | recurseNested b =>
      obtain rfl : b = recurse := Option.some.inj set
      exact .itself b
    | configure config =>
      obtain ⟨value, there, read⟩ := Option.bind_eq_some_iff.mp set
      rw [asBoolean_eq_some_iff] at read
      exact .option (read ▸ there)
    | _ => cases set
  · intro set
    cases set with
    | itself => rfl
    | option there =>
      exact Option.bind_eq_some_iff.mpr ⟨_, there, rfl⟩

theorem severity_iff (step : Adjustment) (severity : Severity) :
    step.severity? = some severity ↔ step.SetsSeverity severity := by
  constructor
  · intro set
    cases step with
    | severity s =>
      obtain rfl : s = severity := Option.some.inj set
      exact .itself s
    | configure config => exact .block set
    | _ => cases set
  · intro set
    cases set with
    | itself => rfl
    | block there => exact there

theorem equivalence_iff (step : Adjustment) (equivalence : Equivalence) :
    step.equivalence? = some equivalence ↔ step.SetsEquivalence equivalence := by
  constructor
  · intro set
    cases step with
    | equivalence e =>
      obtain rfl : e = equivalence := Option.some.inj set
      exact .itself e
    | _ => cases set
  · rintro ⟨⟩
    rfl

end Adjustment

open Adjustment

/-- A step sets what it speaks of and leaves the rest as it is. -/
theorem adjust_eq (rule : LongChain) (step : Adjustment) : rule.adjust step =
    { equivalence := step.equivalence?.getD rule.equivalence
      maxSharedSegments := step.threshold?.getD rule.maxSharedSegments
      recurseNested := step.nested?.getD rule.recurseNested
      severity := step.severity?.getD rule.severity } := by
  cases step <;> rfl

theorem adjust_configure (rule : LongChain) (config : RuleConfig) :
    rule.adjust (.configure config) = rule.configure config := rfl

/-- A run of steps sets each setting to the last that is said of it. -/
theorem foldl_adjust (rule : LongChain) (steps : List Adjustment) : steps.foldl adjust rule =
    { equivalence := (lastGiven equivalence? steps).getD rule.equivalence
      maxSharedSegments := (lastGiven threshold? steps).getD rule.maxSharedSegments
      recurseNested := (lastGiven nested? steps).getD rule.recurseNested
      severity := (lastGiven severity? steps).getD rule.severity } := by
  have same (r s : LongChain) (e : r.equivalence = s.equivalence)
      (m : r.maxSharedSegments = s.maxSharedSegments) (n : r.recurseNested = s.recurseNested)
      (v : r.severity = s.severity) : r = s := by
    cases r
    cases s
    simp_all
  apply same
  · exact foldl_lastGiven LongChain.equivalence (fun r s => by rw [adjust_eq]) steps rule
  · exact foldl_lastGiven LongChain.maxSharedSegments (fun r s => by rw [adjust_eq]) steps rule
  · exact foldl_lastGiven LongChain.recurseNested (fun r s => by rw [adjust_eq]) steps rule
  · exact foldl_lastGiven LongChain.severity (fun r s => by rw [adjust_eq]) steps rule

/-- Both blocks say the same of every setting of the rule, be it by options or by none. -/
structure SaysSame (config config' : RuleConfig) : Prop where
  threshold : ∀ max, SetsThreshold (.configure config) max ↔ SetsThreshold (.configure config') max
  nested : ∀ recurse, SetsNested (.configure config) recurse ↔ SetsNested (.configure config') recurse
  severity : config.severity = config'.severity

theorem configure_saysSame {config config' : RuleConfig} (same : SaysSame config config')
    (rule : LongChain) : rule.configure config = rule.configure config' := by
  have threshold : threshold? (.configure config) = threshold? (.configure config') := by
    refine Option.ext fun max => ?_
    rw [threshold_iff, threshold_iff, same.threshold]
  have nested : nested? (.configure config) = nested? (.configure config') := by
    refine Option.ext fun recurse => ?_
    rw [nested_iff, nested_iff, same.nested]
  have severity : severity? (.configure config) = severity? (.configure config') := same.severity
  rw [← adjust_configure, ← adjust_configure, adjust_eq, adjust_eq, threshold, nested, severity]
  rfl

theorem configure_configure (rule : LongChain) (config : RuleConfig) :
    (rule.configure config).configure config = rule.configure config := by
  have twice {α : Type} (given : Option α) (a : α) : given.getD (given.getD a) = given.getD a := by
    cases given <;> rfl
  simp only [configure, twice]

/-- Of each setting the last step decides that sets it, whatever else was said before or after; where
none does, it is the default. What a block says besides the three settings makes no difference, nor does
saying it twice. -/
theorem last_setting_wins (steps : List Adjustment) :
    (∀ max, (steps.foldl adjust {}).maxSharedSegments = max ↔ LastWord SetsThreshold 2 steps max) ∧
    (∀ recurse, (steps.foldl adjust {}).recurseNested = recurse ↔
      LastWord SetsNested false steps recurse) ∧
    (∀ severity, (steps.foldl adjust {}).severity = severity ↔
      LastWord SetsSeverity .warning steps severity) ∧
    (∀ equivalence, (steps.foldl adjust {}).equivalence = equivalence ↔
      LastWord SetsEquivalence .structural steps equivalence) ∧
    ∀ (rule : LongChain) (config : RuleConfig),
      (∀ config', SaysSame config config' → rule.configure config = rule.configure config') ∧
      (rule.configure config).configure config = rule.configure config := by
  rw [foldl_adjust]
  exact ⟨getD_lastGiven_iff threshold_iff 2 steps, getD_lastGiven_iff nested_iff false steps,
    getD_lastGiven_iff severity_iff .warning steps,
    getD_lastGiven_iff equivalence_iff .structural steps,
    fun rule config => ⟨fun _ same => configure_saysSame same rule, configure_configure rule config⟩⟩

/-- A block whose threshold and nesting are options of other types. -/
def mistypedBlock : RuleConfig where
  options := [("max_shared_segments", .string "3"), ("recurse_nested", .integer 1), ("reason", .array [])]

/-- A threshold, then one that a block sets, then a block with a negative one. -/
def mixedSteps : List Adjustment :=
  [.maxSharedSegments 5,
    .configure { severity := some .error, options := [("max_shared_segments", .integer 4)] },
    .configure { options := [("max_shared_segments", .integer (-1)), ("recurse_nested", .boolean true)] },
    .severity .info, .configure mistypedBlock]

theorem last_setting_wins_mixed :
    LastWord SetsThreshold 2 mixedSteps 4 ∧ LastWord SetsNested false mixedSteps true ∧
      LastWord SetsSeverity .warning mixedSteps .info ∧ SaysSame {} mistypedBlock ∧
      ({} : LongChain).configure {} = ({} : LongChain).configure mistypedBlock := by
  have same : SaysSame {} mistypedBlock := by
    refine ⟨fun max => ?_, fun recurse => ?_, rfl⟩
    · rw [← threshold_iff, ← threshold_iff]
      exact Iff.rfl
    · rw [← nested_iff, ← nested_iff]
      exact Iff.rfl
  obtain ⟨threshold, nested, severity, -, blocks⟩ := last_setting_wins mixedSteps
  exact ⟨(threshold 4).mp rfl, (nested true).mp rfl, (severity .info).mp rfl, same,
    (blocks {} {}).1 mistypedBlock same⟩

end LongChain

end SwitchLint
