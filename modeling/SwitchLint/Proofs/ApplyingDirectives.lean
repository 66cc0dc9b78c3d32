import SwitchLint.Proofs.EffectiveSeverity
import SwitchLint.Proofs.KeptSwitches

/-!
Which directives apply to a finding, and which of them is answered for. Of a directive on the line of the
finding and one on the line before it, the latter comes first, and its reason is the one that counts. So
a notice is due if neither gives a reason, but also if only the one on the line before gives none.
-/

namespace SwitchLint

namespace Allowance

variable (content rule : String) (line : Nat)

/-- The directive names the rule, and it stands on the line of that number or on the line before. -/
def Applies (d : Directive) : Prop :=
  ∃ n text, (n = line - 1 ∨ n = line) ∧ line? content n = some text ∧
    Directive.parse text = some d ∧ d.names rule = true

/-- The directive on the line before comes first and gives no reason, but one on the line itself does. -/
def Overlooks : Prop :=
  ∃ above here, directive? content rule (line - 1) = some above ∧ above.reason = none ∧
    directive? content rule line = some here ∧ here.reason ≠ none

theorem directive_eq_some_iff (d : Directive) : directive? content rule line = some d ↔
    ∃ text, line? content line = some text ∧ Directive.parse text = some d ∧ d.names rule = true := by
  have named (own : Directive) :
      (if own.names rule = true then some own else none) = some d ↔ own = d ∧ d.names rule = true := by
    split
    · rename_i applies
      rw [Option.some.injEq]
      exact ⟨fun same => ⟨same, same ▸ applies⟩, And.left⟩
    · rename_i other
      constructor
      · intro impossible
        cases impossible
      · rintro ⟨rfl, applies⟩
        exact absurd applies other
  simp [directive?, Option.bind_eq_some_iff, named]

theorem applies_iff (d : Directive) : Applies content rule line d ↔
    directive? content rule (line - 1) = some d ∨ directive? content rule line = some d := by
  rw [directive_eq_some_iff, directive_eq_some_iff]
  constructor
  · rintro ⟨n, text, rfl | rfl, read⟩
    · exact .inl ⟨text, read⟩
    · exact .inr ⟨text, read⟩
  · rintro (⟨text, read⟩ | ⟨text, read⟩)
    · exact ⟨line - 1, text, .inl rfl, read⟩
    · exact ⟨line, text, .inr rfl, read⟩

theorem isAllowed_iff : (check content line rule).isAllowed = true ↔
    ∃ d, Applies content rule line d := by
  simp only [applies_iff, check]
  cases directive? content rule (line - 1) with
  | some d => simp [isAllowed]
  | none => cases directive? content rule line <;> simp [isAllowed]

/-- A reason that is answered is that of a directive that applies. -/
theorem applies_of_reason {reason : String} (given : (check content line rule).reason = some reason) :
    ∃ d, Applies content rule line d ∧ d.reason = some reason := by
  simp only [applies_iff]
  unfold check at given
  cases above : directive? content rule (line - 1) with
  | some d =>
    rw [above] at given
    exact ⟨d, .inl rfl, given⟩
  | none =>
    rw [above] at given
    cases here : directive? content rule line with
    | some d =>
      rw [here] at given
      exact ⟨d, .inr rfl, given⟩
    | none =>
      rw [here] at given
      cases given

/-- No reason is answered if no directive that applies gives one, or if the one that does is
overlooked. -/
theorem allowed_none_iff : check content line rule = .allowed none ↔
    ((∃ d, Applies content rule line d) ∧ ∀ d, Applies content rule line d → d.reason = none) ∨
      Overlooks content rule line := by
  simp only [applies_iff, Overlooks, check]
  cases directive? content rule (line - 1) with
  | none => cases directive? content rule line <;> simp
  | some above =>
    cases directive? content rule line with
    | none => simp
    | some here =>
      -- Both apply: the first one decides, and the second one may give what the first one lacks.
      by_cases silent : above.reason = none
      · by_cases silent' : here.reason = none <;> simp [or_imp, forall_and, silent, silent']
      · simp [silent]

end Allowance

namespace LongChain

theorem notice_mem_iff (rule : LongChain) (file : FileContext) (clauses : List Clause) (span : Span) :
    missingReason (.ofSpan file.path span) ∈ rule.outcome file clauses span ↔
      (rule.scan clauses).isSome = true ∧ rule.severity = .error ∧
        Allowance.check file.content span.line name = .allowed none := by
  unfold outcome
  cases rule.scan clauses with
  | none => simp
  | some shared =>
    cases Allowance.check file.content span.line name with
    | denied =>
      have other : missingReason (.ofSpan file.path span) ≠
          rule.finding (.ofSpan file.path span) (chainText shared) := fun same =>
        message_ne_notice _ _ (congrArg Violation.message same).symm
      simp [other]
    | allowed reason =>
      cases reason with
      | some text => simp
      | none => by_cases grave : rule.severity = .error <;> simp [grave]

/-- A notice is due at a switch that would be an error if directives apply to it and none of them gives a
reason. Apart from that there is one only where a directive without a reason comes before one with a
reason. -/
theorem notice_iff (rule : LongChain) (file : FileContext) (clauses : List Clause) (span : Span) :
    missingReason (.ofSpan file.path span) ∈ rule.outcome file clauses span ↔
      (rule.scan clauses).isSome = true ∧ rule.severity = .error ∧
        (((∃ d, Allowance.Applies file.content name span.line d) ∧
            ∀ d, Allowance.Applies file.content name span.line d → d.reason = none) ∨
          Allowance.Overlooks file.content name span.line) := by
  rw [notice_mem_iff, Allowance.allowed_none_iff]

/-- Two directives apply to the switch, and only the second one gives a reason. -/
def explainedTwice : String :=
  "package p\n\nfunc f(v int) \x7b\n\t// chainlint: allow(long-chain)\n" ++
    "\tswitch v \x7b // chainlint: allow(long-chain) reason=\x22table\x22\n" ++
    "\tcase a.b.c.d:\n\tcase a.b.c.e:\n\t\x7d\n\x7d\n"

/-- A directive with a reason applies to the switch, and the notice says all the same that the reason is
missing. -/
theorem notice_despite_reason :
    (∃ file, Go.parse explainedTwice = .ok file ∧
      ({ severity := .error } : LongChain).check ⟨explainedTwice, "a.go"⟩ file =
        [missingReason ⟨"a.go", 5, 2, 61, 90⟩]) ∧
      ∃ d, Allowance.Applies explainedTwice name 5 d ∧ d.reason = some "table" := by
  constructor
  · have run : (Go.parse explainedTwice).toOption.map
        (({ severity := .error } : LongChain).check ⟨explainedTwice, "a.go"⟩) =
          some [missingReason ⟨"a.go", 5, 2, 61, 90⟩] := by decide +kernel
    exact Go.parse_of_run run
  · have read : Allowance.directive? explainedTwice name 5 = some ⟨["long-chain"], some "table"⟩ := by
      decide +kernel
    exact ⟨_, (Allowance.applies_iff explainedTwice name 5 _).mpr (.inr read), rfl⟩

end LongChain

end SwitchLint
