import Mathlib.Data.List.Flatten
import SwitchLint.Proofs.Scanning
import SwitchLint.Proofs.Walk

/-!
What becomes of the report when the settings are loosened. A lower threshold and a look into nested
statements only ever add to it, and a coarser comparison only ever lengthens a prefix.
-/

namespace SwitchLint

/-! ### Coarser comparisons -/

section Coarser

variable {finer coarser : Expr → Expr → Bool}
  (implied : ∀ a b, finer a b = true → coarser a b = true)

include implied

theorem shared_prefix_coarser {xs xs' : List Expr} (initial : xs <+: xs') (ys : List Expr) :
    sharedPrefix finer xs ys <+: sharedPrefix coarser xs' ys := by
  induction ys generalizing xs xs' with
  | nil =>
    cases xs <;> exact List.nil_prefix
  | cons y ys ih =>
    cases xs with
    | nil => exact List.nil_prefix
    | cons x xs =>
      obtain ⟨rest, rfl⟩ := initial
      by_cases head : finer x y = true
      · have head' := implied x y head
        have tail : xs <+: xs ++ rest := List.prefix_append xs rest
        simp only [sharedPrefix, List.cons_append, if_pos head, if_pos head']
        exact List.cons_prefix_cons.mpr ⟨rfl, ih tail⟩
      · simp only [sharedPrefix, if_neg head]
        exact List.nil_prefix

/-- The two folds may be cut short by different chains. What carries the induction is that the finer one
holds an initial part of the coarser one all the way. -/
theorem shared_by_all_coarser {first first' : List Expr} (initial : first <+: first')
    (others : List (List Expr)) :
    LongChain.sharedByAll finer first others <+: LongChain.sharedByAll coarser first' others := by
  induction others generalizing first first' with
  | nil => exact initial
  | cons other others ih => exact ih (shared_prefix_coarser implied initial other)

end Coarser

namespace LongChain

theorem prefixOf_coarser (rule rule' : LongChain) (clauses : List Clause)
    (implied : ∀ a b, rule.equivalence.holds a b = true → rule'.equivalence.holds a b = true) :
    rule.prefixOf clauses <+: rule'.prefixOf clauses := by
  unfold prefixOf
  cases (caseExprs clauses).map Expr.chain with
  | nil => exact List.prefix_rfl
  | cons first others => exact shared_by_all_coarser implied List.prefix_rfl others

theorem scan_coarser (rule rule' : LongChain) (clauses : List Clause)
    (threshold : rule'.maxSharedSegments = rule.maxSharedSegments)
    (implied : ∀ a b, rule.equivalence.holds a b = true → rule'.equivalence.holds a b = true)
    (shared : List Expr) (reported : rule.scan clauses = some shared) :
    ∃ shared', rule'.scan clauses = some shared' ∧ shared <+: shared' := by
  obtain ⟨many, long, rfl⟩ := (rule.scan_iff clauses shared).mp reported
  have initial := prefixOf_coarser rule rule' clauses implied
  have long' : rule'.maxSharedSegments < (rule'.prefixOf clauses).length := by
    rw [threshold]
    exact Nat.lt_of_lt_of_le long initial.length_le
  exact ⟨rule'.prefixOf clauses, (rule'.scan_iff clauses _).mpr ⟨many, long', rfl⟩, initial⟩

/-! ### Looser settings -/

/-- The second rule compares and grades as the first does, accepts no longer prefix, and looks into
nested statements if the first does. -/
structure Loosens (rule rule' : LongChain) : Prop where
  equivalence : rule'.equivalence = rule.equivalence
  severity : rule'.severity = rule.severity
  threshold : rule'.maxSharedSegments ≤ rule.maxSharedSegments
  nested : rule.recurseNested = true → rule'.recurseNested = true

variable {rule rule' : LongChain} (looser : Loosens rule rule')

include looser

/-- The prefix does not depend on the threshold, so a switch that is still reported is reported with the
same one. -/
theorem scan_loosened (clauses : List Clause) (shared : List Expr)
    (reported : rule.scan clauses = some shared) : rule'.scan clauses = some shared := by
  obtain ⟨many, long, rfl⟩ := (rule.scan_iff clauses shared).mp reported
  have same : rule'.prefixOf clauses = rule.prefixOf clauses := by
    simp only [prefixOf, looser.equivalence]
  have long' : rule'.maxSharedSegments < (rule'.prefixOf clauses).length := by
    rw [same]
    exact Nat.lt_of_le_of_lt looser.threshold long
  exact (rule'.scan_iff clauses _).mpr ⟨many, long', same.symm⟩

theorem outcome_loosened (file : FileContext) (clauses : List Clause) (span : Span) :
    (rule.outcome file clauses span).Sublist (rule'.outcome file clauses span) := by
  cases reported : rule.scan clauses with
  | none =>
    have silent : rule.outcome file clauses span = [] := by simp only [outcome, reported]
    rw [silent]
    exact List.nil_sublist _
  | some shared =>
    have reported' := scan_loosened looser clauses shared reported
    have same : rule.outcome file clauses span = rule'.outcome file clauses span := by
      simp only [outcome, reported, reported', finding, looser.severity]
    rw [same]

theorem look_loosened (s : Stmt) : (rule.look s).Sublist (rule'.look s) := by
  by_cases deep : rule.recurseNested = true
  · have deep' := looser.nested deep
    simp only [look, if_pos deep, if_pos deep', List.Sublist.refl]
  · have itself : ([], s) ∈ rule'.look s := (rule'.mem_look s s []).mpr ⟨rfl, .inr rfl⟩
    simp only [look, if_neg deep]
    exact List.singleton_sublist.mpr itself

theorem visited_loosened (body : Block) : (rule.visited body).Sublist (rule'.visited body) := by
  apply List.Sublist.filterMap
  apply List.Sublist.flatMap_right
  rintro ⟨s, i⟩ _
  exact (look_loosened looser s).map _

theorem check_loosened (file : FileContext) (source : SourceFile) :
    (rule.check file source).Sublist (rule'.check file source) := by
  rw [check_eq, check_eq]
  apply List.Sublist.flatMap_right
  intro body _
  have outcomes : ((rule.visited body).flatMap fun s => rule.outcome file s.2.1 s.2.2).Sublist
      ((rule.visited body).flatMap fun s => rule'.outcome file s.2.1 s.2.2) :=
    List.Sublist.flatMap_right _ fun s _ => outcome_loosened looser file s.2.1 s.2.2
  exact outcomes.trans ((visited_loosened looser body).flatMap _)

omit looser

/-- Looser settings keep all that is reported, entry for entry and in order, and may add to it. Where a
comparison is replaced by a coarser one, every switch that is reported still is, with a prefix that
begins with the one before. -/
theorem report_monotone :
    (∀ rule rule' : LongChain, Loosens rule rule' → ∀ file source,
      (rule.check file source).Sublist (rule'.check file source)) ∧
    ∀ (rule : LongChain) (finer coarser : Equivalence),
      (∀ a b, finer.holds a b = true → coarser.holds a b = true) → ∀ clauses shared,
      scan { rule with equivalence := finer } clauses = some shared →
      ∃ shared', scan { rule with equivalence := coarser } clauses = some shared' ∧
        shared <+: shared' := by
  constructor
  · intro rule rule' looser file source
    exact check_loosened looser file source
  · intro rule finer coarser implied clauses shared reported
    exact scan_coarser { rule with equivalence := finer } { rule with equivalence := coarser } clauses
      rfl implied shared reported

theorem same_ignoring_case (a b : Expr) (same : Equivalence.structural.holds a b = true) :
    Equivalence.ignoringCase.holds a b = true := by
  cases a with
  | ident name _ =>
    cases b with
    | ident name' _ =>
      have names : name = name' := by simpa [Equivalence.structural, Expr.same] using same
      simp [Equivalence.ignoringCase, Expr.sameIgnoringCase, names]
    | _ => exact same
  | _ => exact same

/-- A switch in the body of a function, and one inside a block. -/
def optionsFile : SourceFile :=
  let switch (line : Nat) : Stmt := .switch casesTogether ⟨0, 0, line, 1⟩
  let body : Block := .mk [switch 2, .compound .block [.mk [switch 4] .zero] .zero] .zero
  ⟨[.function ⟨"f", some body, .zero⟩]⟩

/-- A rule that reports more than the default one. -/
def eager : LongChain := { maxSharedSegments := 1, recurseNested := true }

theorem report_monotone_of_options :
    Loosens {} eager ∧
      (check {} ⟨"", "a.go"⟩ optionsFile).Sublist (eager.check ⟨"", "a.go"⟩ optionsFile) ∧
      ∃ shared shared', scan {} casesTogether = some shared ∧
        scan { equivalence := .ignoringCase } casesTogether = some shared' ∧ shared <+: shared' := by
  have looser : Loosens {} eager := ⟨rfl, rfl, by decide, fun _ => rfl⟩
  obtain ⟨shared', reported, initial⟩ := report_monotone.2 {} .structural .ignoringCase
    same_ignoring_case casesTogether _ rfl
  exact ⟨looser, report_monotone.1 {} eager looser _ _, _, shared', rfl, reported, initial⟩

end LongChain

end SwitchLint
