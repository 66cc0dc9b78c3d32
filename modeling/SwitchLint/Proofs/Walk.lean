import SwitchLint.Proofs.Nesting
import SwitchLint.Rule.LongChain

/-!
What the walk over a file reports. The findings so far are handed from statement to statement; all that
a visit does is to add the outcome of each switch that it meets, and it meets each switch once.
-/

namespace SwitchLint

/-- A fold whose steps only ever add to a list adds what all of them do, in order. -/
theorem foldl_appends {α β : Type} {step : List β → α → List β} {added : α → List β} (xs : List α)
    (appends : ∀ x ∈ xs, ∀ found, step found x = found ++ added x) (found : List β) :
    xs.foldl step found = found ++ xs.flatMap added := by
  induction xs generalizing found with
  | nil => simp
  | cons x xs ih =>
    have head := appends x List.mem_cons_self found
    have tail := ih (fun y hy => appends y (List.mem_cons_of_mem x hy)) (found ++ added x)
    rw [List.foldl_cons, head, tail, List.flatMap_cons, List.append_assoc]

namespace LongChain

/-! ### What is said of one switch -/

/-- What is to be reported of a switch: nothing if no long prefix is shared; a finding if no comment
allows it; otherwise nothing, unless findings are errors and the comment gives no reason. -/
def outcome (rule : LongChain) (file : FileContext) (clauses : List Clause) (span : Span) :
    List Violation :=
  match rule.scan clauses, Allowance.check file.content span.line name with
  | none, _ => []
  | some shared, .denied => [rule.finding (.ofSpan file.path span) (chainText shared)]
  | some _, .allowed (some _) => []
  | some _, .allowed none =>
    if rule.severity = .error then [missingReason (.ofSpan file.path span)] else []

/-- What is to be reported of a statement itself. -/
def outcomeOf (rule : LongChain) (file : FileContext) : Stmt → List Violation
  | .switch clauses span => rule.outcome file clauses span
  | _ => []

theorem report_eq (rule : LongChain) (file : FileContext) (found : List Violation)
    (clauses : List Clause) (span : Span) (shared : List Expr)
    (reported : rule.scan clauses = some shared) :
    rule.report file found span shared = found ++ rule.outcome file clauses span := by
  simp only [report, outcome, reported]
  cases Allowance.check file.content span.line name with
  | denied => simp [Allowance.isAllowed]
  | allowed reason =>
    cases reason with
    | some r => simp [Allowance.isAllowed, Allowance.reason]
    | none =>
      by_cases grave : rule.severity = .error
      · simp [Allowance.isAllowed, Allowance.reason, requiresReason, grave]
      · simp [Allowance.isAllowed, Allowance.reason, requiresReason, grave]

theorem inspect_eq (rule : LongChain) (file : FileContext) (found : List Violation) (s : Stmt) :
    rule.inspect file found s = found ++ rule.outcomeOf file s := by
  cases s with
  | switch clauses span =>
    simp only [inspect, outcomeOf]
    cases reported : rule.scan clauses with
    | none => simp [outcome, reported]
    | some shared => exact rule.report_eq file found clauses span shared reported
  | compound kind blocks span => simp [inspect, outcomeOf]
  | simple span => simp [inspect, outcomeOf]

theorem outcome_fields (rule : LongChain) (file : FileContext) (clauses : List Clause) (span : Span)
    (v : Violation) (member : v ∈ rule.outcome file clauses span) :
    v.code = code ∧ v.rule = name ∧ v.location = .ofSpan file.path span := by
  unfold outcome at member
  split at member
  · cases member
  · obtain rfl := List.mem_singleton.mp member
    exact ⟨rfl, rfl, rfl⟩
  · cases member
  · split at member
    · obtain rfl := List.mem_singleton.mp member
      exact ⟨rfl, rfl, rfl⟩
    · cases member

/-! ### Which switches are met -/

/-- The statements that a visit looks at, with their addresses from the visited statement on. -/
def look (rule : LongChain) (s : Stmt) : List (List Nat × Stmt) :=
  if rule.recurseNested then s.located else [([], s)]

theorem visitStmt_eq (rule : LongChain) (file : FileContext) (found : List Violation) (s : Stmt) :
    rule.visitStmt file found s =
      found ++ ((rule.look s).map Prod.snd).flatMap (rule.outcomeOf file) := by
  induction s using Stmt.nested_induction generalizing found with
  | step s ih =>
    rw [visitStmt, List.foldl_attach, inspect_eq]
    by_cases deep : rule.recurseNested = true
    · simp only [look, if_pos deep, Stmt.located_stmts] at ih ⊢
      rw [foldl_appends s.nested fun t ht found => ih t ht found, Stmt.preorder_eq s,
        List.flatMap_cons, List.flatMap_assoc, List.append_assoc]
    · simp [look, deep]

/-- The switch at an address, if there is one. -/
def switchAt : List Nat × Stmt → Option (List Nat × List Clause × Span)
  | (address, .switch clauses span) => some (address, clauses, span)
  | _ => none

/-- The switches of a body that the rule looks at, with their addresses. -/
def visited (rule : LongChain) (body : Block) : List (List Nat × List Clause × Span) :=
  (Stmt.numbered rule.look body.stmts).filterMap switchAt

/-- The list holds every switch of the body that the settings ask for exactly once, in preorder: all of
them, or the direct statements only. -/
structure Visits (rule : LongChain) (body : Block)
    (switches : List (List Nat × List Clause × Span)) : Prop where
  ordered : switches.Pairwise fun a b => a.1 < b.1
  complete : ∀ address clauses span, (address, clauses, span) ∈ switches ↔
    body.stmtAt? address = some (.switch clauses span) ∧
      (rule.recurseNested = true ∨ address.length = 1)

theorem look_ordered (rule : LongChain) (s : Stmt) : (rule.look s).Pairwise fun a b => a.1 < b.1 := by
  unfold look
  split
  · exact s.located_ordered
  · exact List.pairwise_singleton _ _

theorem mem_look (rule : LongChain) (s t : Stmt) (address : List Nat) :
    (address, t) ∈ rule.look s ↔
      s.inside? address = some t ∧ (rule.recurseNested = true ∨ address = []) := by
  unfold look
  split
  · rename_i deep
    simp [Stmt.mem_located, deep]
  · rename_i flat
    simp only [List.mem_singleton, Prod.mk.injEq, flat]
    constructor
    · rintro ⟨rfl, rfl⟩
      exact ⟨rfl, .inr rfl⟩
    · rintro ⟨found, impossible | rfl⟩
      · cases impossible
      · exact ⟨rfl, (Option.some.inj found).symm⟩

theorem switchAt_iff (place : List Nat × Stmt) (address : List Nat) (clauses : List Clause)
    (span : Span) : switchAt place = some (address, clauses, span) ↔
      place = (address, .switch clauses span) := by
  obtain ⟨a, s⟩ := place
  cases s <;> simp [switchAt]

theorem visited_visits (rule : LongChain) (body : Block) : rule.Visits body (rule.visited body) where
  ordered := by
    have ordered := Stmt.numbered_ordered rule.look body.stmts fun s _ => rule.look_ordered s
    refine ordered.filterMap switchAt ?_
    rintro a b less ⟨x, cx, sx⟩ hx ⟨y, cy, sy⟩ hy
    rw [switchAt_iff] at hx hy
    rw [hx, hy] at less
    exact less
  complete address clauses span := by
    simp only [visited, List.mem_filterMap, switchAt_iff, exists_eq_right, Stmt.mem_numbered, mem_look]
    cases address with
    | nil => simp [Block.stmtAt?]
    | cons i inner =>
      simp only [Block.stmtAt?, Option.bind_eq_some_iff, List.length_cons, Nat.add_eq_right,
        List.length_eq_zero_iff]
      constructor
      · rintro ⟨_, _, s, hi, hs, ht, asked⟩
        cases hi
        exact ⟨⟨s, hs, ht⟩, asked⟩
      · rintro ⟨⟨s, hs, ht⟩, asked⟩
        exact ⟨i, inner, s, rfl, hs, ht, asked⟩

theorem visits_unique (rule : LongChain) (body : Block)
    (switches switches' : List (List Nat × List Clause × Span)) (visits : rule.Visits body switches)
    (visits' : rule.Visits body switches') : switches = switches' := by
  have distinct {l : List (List Nat × List Clause × Span)} (ordered : l.Pairwise fun a b => a.1 < b.1) :
      l.Nodup := by
    refine ordered.imp ?_
    rintro a _ less rfl
    exact List.lt_irrefl a.1 less
  have members : switches.Perm switches' := by
    rw [List.perm_ext_iff_of_nodup (distinct visits.ordered) (distinct visits'.ordered)]
    rintro ⟨address, clauses, span⟩
    rw [visits.complete, visits'.complete]
  exact members.eq_of_pairwise (fun a b _ _ less more => absurd less (List.lt_asymm more)) visits.ordered
    visits'.ordered

theorem visits_iff (rule : LongChain) (body : Block)
    (switches : List (List Nat × List Clause × Span)) :
    rule.Visits body switches ↔ switches = rule.visited body := by
  constructor
  · intro visits
    exact rule.visits_unique body switches _ visits (rule.visited_visits body)
  · rintro rfl
    exact rule.visited_visits body

/-! ### The whole file -/

theorem outcomes_of_switches (rule : LongChain) (file : FileContext) (places : List (List Nat × Stmt)) :
    (places.map Prod.snd).flatMap (rule.outcomeOf file) =
      (places.filterMap switchAt).flatMap fun s => rule.outcome file s.2.1 s.2.2 := by
  induction places with
  | nil => rfl
  | cons place places ih =>
    obtain ⟨address, s⟩ := place
    rw [List.map_cons, List.flatMap_cons, ih]
    cases s <;> simp [switchAt, outcomeOf, List.filterMap_cons]

theorem visitFunction_eq (rule : LongChain) (file : FileContext) (found : List Violation)
    (f : Function) : rule.visitFunction file found f = found ++ f.body.toList.flatMap fun body =>
      (rule.visited body).flatMap fun s => rule.outcome file s.2.1 s.2.2 := by
  unfold visitFunction
  cases f.body with
  | none => simp
  | some body =>
    dsimp only
    rw [foldl_appends body.stmts fun s _ found => rule.visitStmt_eq file found s]
    have outcomes := rule.outcomes_of_switches file (Stmt.numbered rule.look body.stmts)
    rw [Stmt.numbered_stmts, List.flatMap_assoc] at outcomes
    simp [outcomes, visited]

/-- A file is checked switch by switch: the report is the concatenation of the outcomes of the visited
switches, function by function. -/
theorem check_eq (rule : LongChain) (file : FileContext) (source : SourceFile) :
    rule.check file source = (source.functions.filterMap Function.body).flatMap fun body =>
      (rule.visited body).flatMap fun s => rule.outcome file s.2.1 s.2.2 := by
  rw [check, foldl_appends source.functions fun f _ found => rule.visitFunction_eq file found f,
    List.nil_append, List.filterMap_eq_flatMap_toList, List.flatMap_assoc]

/-- The rule says `v` of a switch in the file whose cases share the prefix. -/
def Speaks (rule : LongChain) (context : FileContext) (file : SourceFile) (v : Violation)
    (shared : List Expr) : Prop :=
  ∃ body ∈ file.functions.filterMap Function.body, ∃ address clauses span,
    (address, clauses, span) ∈ rule.visited body ∧ rule.scan clauses = some shared ∧
      v ∈ rule.outcome context clauses span

theorem mem_check_iff (rule : LongChain) (context : FileContext) (file : SourceFile) (v : Violation) :
    v ∈ rule.check context file ↔ ∃ shared, rule.Speaks context file v shared := by
  rw [check_eq]
  constructor
  · intro member
    obtain ⟨body, declared, member⟩ := List.mem_flatMap.mp member
    obtain ⟨⟨address, clauses, span⟩, visited, member⟩ := List.mem_flatMap.mp member
    cases reported : rule.scan clauses with
    | none => simp [outcome, reported] at member
    | some shared =>
      exact ⟨shared, body, declared, address, clauses, span, visited, reported, member⟩
  · rintro ⟨_, body, declared, address, clauses, span, visited, _, member⟩
    exact List.mem_flatMap.mpr ⟨body, declared, List.mem_flatMap.mpr ⟨_, visited, member⟩⟩

/-- The report on a file consists of the outcomes of the visited switches, function by function and in
preorder within a body. Every switch that the settings ask for is visited once, and all that is said of
it names the rule and the place of the switch. -/
theorem check_exact (rule : LongChain) (file : FileContext) (source : SourceFile) :
    (∀ body switches, rule.Visits body switches ↔ switches = rule.visited body) ∧
    (rule.check file source = (source.functions.filterMap Function.body).flatMap fun body =>
      (rule.visited body).flatMap fun (_, clauses, span) => rule.outcome file clauses span) ∧
    ∀ clauses span, ∀ v ∈ rule.outcome file clauses span,
      v.code = code ∧ v.rule = name ∧ v.location = .ofSpan file.path span :=
  ⟨rule.visits_iff, rule.check_eq file source, rule.outcome_fields file⟩

end LongChain

end SwitchLint
