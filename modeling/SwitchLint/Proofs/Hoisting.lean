import SwitchLint.Proofs.Scanning
import SwitchLint.Proofs.Spine

/-!
Why the advice of the rule can be followed: under syntactic identity the reported prefix is a base of
every case, and the text of every case begins with the text that the finding names.
-/

namespace SwitchLint.LongChain

open SwitchLint.Expr

theorem reported_begins_case (rule : LongChain) (structural : rule.equivalence = .structural)
    (clauses : List Clause) (shared : List Expr) (reported : rule.scan clauses = some shared)
    (e : Expr) (member : e ∈ caseExprs clauses) : shared.map bare <+: e.chain.map bare := by
  obtain ⟨_, _, rfl⟩ := (scan_iff rule clauses shared).mp reported
  have several : caseExprs clauses ≠ [] := List.ne_nil_of_mem member
  have common := (common_iff_prefixOf rule structural clauses several _).mp List.prefix_rfl
  rw [← chain_bare]
  exact common e.bare (List.mem_map_of_mem member)

theorem reported_nonempty (rule : LongChain) (clauses : List Clause) (shared : List Expr)
    (reported : rule.scan clauses = some shared) : shared ≠ [] := by
  obtain ⟨_, long, rfl⟩ := (scan_iff rule clauses shared).mp reported
  exact List.length_pos_iff.mp (Nat.zero_lt_of_lt long)

/-- The leading segments of a case that a reported prefix stands for. -/
theorem case_splits (rule : LongChain) (structural : rule.equivalence = .structural)
    (clauses : List Clause) (shared : List Expr) (reported : rule.scan clauses = some shared)
    (e : Expr) (member : e ∈ caseExprs clauses) :
    ∃ leading rest, e.chain = leading ++ rest ∧ leading ≠ [] ∧
      leading.map bare = shared.map bare := by
  have initial := reported_begins_case rule structural clauses shared reported e member
  rw [List.prefix_iff_eq_take, ← List.map_take] at initial
  refine ⟨_, _, (List.take_append_drop _ e.chain).symm, ?_, initial.symm⟩
  intro none
  rw [none, List.map_nil] at initial
  exact reported_nonempty rule clauses shared reported (List.map_eq_nil_iff.mp initial)

/-- A prefix that matches the leading segments of an expression folds back into one of its bases. -/
theorem base_of_leading (e : Expr) (leading rest shared : List Expr)
    (segments : e.chain = leading ++ rest) (nonempty : leading ≠ [])
    (same : leading.map bare = shared.map bare) :
    ∃ root fields base, shared = root :: fields ∧ e.StripsTo base ∧
      Expr.same base (ofChain root fields) = true := by
  have initial : leading <+: e.chain := segments ▸ List.prefix_append leading rest
  obtain ⟨base, strips, whole⟩ := strips_to_leading e leading nonempty initial
  cases leading with
  | nil => exact absurd rfl nonempty
  | cons r fs =>
    cases shared with
    | nil => cases same
    | cons root fields =>
      obtain ⟨roots, others⟩ := List.cons.inj same
      refine ⟨root, fields, base, rfl, strips, (same_iff_bare base _).mpr ?_⟩
      exact (bare_refold base r fs whole).symm.trans (bare_ofChain_congr roots others)

/-- The text of an expression is that of its leading segments, or goes on after a dot. -/
theorem text_of_leading (e : Expr) (leading rest : List Expr) (segments : e.chain = leading ++ rest)
    (nonempty : leading ≠ []) :
    e.text = chainText leading ∨ ∃ tail, e.text = chainText leading ++ "." ++ tail := by
  rw [← chainText_chain e, segments]
  by_cases all : rest = []
  · left
    rw [all, List.append_nil]
  · right
    exact ⟨chainText rest, chainText_append nonempty all⟩

/-- What is reported of a switch can be hoisted out of each of its cases, the one that the segments
were taken from or any other: some base of the case is the prefix folded back, the text of the case
begins with the text of the prefix, and that text is the one in the message and in the advice. -/
theorem reported_prefix_hoists (rule : LongChain) (structural : rule.equivalence = .structural)
    (clauses : List Clause) (shared : List Expr) (reported : rule.scan clauses = some shared)
    (e : Expr) (member : e ∈ caseExprs clauses) :
    (∃ root fields base, shared = root :: fields ∧ e.StripsTo base ∧
      same base (ofChain root fields) = true) ∧
    (e.text = chainText shared ∨ ∃ tail, e.text = chainText shared ++ "." ++ tail) ∧
    ∀ (file : FileContext) (found : List Violation) (span : Span),
      Allowance.check file.content span.line name = .denied →
      ∃ v, rule.inspect file found (.switch clauses span) = found ++ [v] ∧
        v.message = message (chainText shared) ∧ v.suggestion = some (advice (chainText shared)) := by
  obtain ⟨leading, rest, segments, nonempty, same⟩ :=
    case_splits rule structural clauses shared reported e member
  refine ⟨base_of_leading e leading rest shared segments nonempty same, ?_, ?_⟩
  · rw [← chainText_of_same_places same]
    exact text_of_leading e leading rest segments nonempty
  · intro file found span denied
    refine ⟨rule.finding (.ofSpan file.path span) (chainText shared), ?_, rfl, rfl⟩
    simp [inspect, reported, report, denied, Allowance.isAllowed]

theorem reported_prefix_hoists_option :
    ∃ shared, ({} : LongChain).scan casesApart = some shared ∧ chainText shared = "cfg.Srv.Opts" ∧
      (∃ root fields base, shared = root :: fields ∧ (optionOf "Timeout" 40).StripsTo base ∧
        same base (ofChain root fields) = true) ∧
      ((optionOf "Timeout" 40).text = chainText shared ∨
        ∃ tail, (optionOf "Timeout" 40).text = chainText shared ++ "." ++ tail) ∧
      ∃ v, ({} : LongChain).inspect ⟨"", "a.go"⟩ [] (.switch casesApart Span.zero) = [v] ∧
        v.message = message (chainText shared) := by
  refine ⟨_, rfl, by decide, ?_⟩
  have member : optionOf "Timeout" 40 ∈ caseExprs casesApart :=
    List.mem_cons_of_mem _ List.mem_cons_self
  obtain ⟨base, text, texts⟩ := reported_prefix_hoists {} rfl casesApart _ rfl _ member
  obtain ⟨v, added, message, _⟩ := texts ⟨"", "a.go"⟩ [] Span.zero (by decide)
  exact ⟨base, text, v, added, message⟩

end SwitchLint.LongChain
