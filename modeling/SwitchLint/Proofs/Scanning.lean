import SwitchLint.Proofs.SharedPrefix

/-!
What the scan of a switch reports. For any comparison it is the longest prefix of the first chain that
all the other chains match. Under syntactic identity it is, up to ranges, the longest prefix that all
chains have in common, whatever their order.
-/

namespace SwitchLint.LongChain

open SwitchLint.Expr

/-- The prefix that the cases of a switch share, long or short. -/
def prefixOf (rule : LongChain) (clauses : List Clause) : List Expr :=
  match (caseExprs clauses).map chain with
  | first :: others => sharedByAll rule.equivalence.holds first others
  | [] => []

theorem scan_eq (rule : LongChain) (clauses : List Clause) :
    rule.scan clauses =
      if 2 ≤ (caseExprs clauses).length ∧ rule.maxSharedSegments < (rule.prefixOf clauses).length
      then some (rule.prefixOf clauses) else none := by
  rw [scan, prefixOf]
  rcases caseExprs clauses with _ | ⟨e, _ | ⟨d, es⟩⟩
  · simp
  · simp
  · simp

theorem scan_iff (rule : LongChain) (clauses : List Clause) (shared : List Expr) :
    rule.scan clauses = some shared ↔ 2 ≤ (caseExprs clauses).length ∧
      rule.maxSharedSegments < (rule.prefixOf clauses).length ∧ shared = rule.prefixOf clauses := by
  rw [scan_eq, Option.ite_none_right_eq_some, Option.some.injEq, and_assoc]
  simp only [eq_comm]

/-- The scan reports exactly the longest prefix of the first chain that all other chains match, if it
is longer than the settings accept and there is more than one case to share it. No law is assumed of
the comparison. -/
theorem scan_exact (rule : LongChain) (clauses : List Clause) (shared : List Expr) :
    (rule.scan clauses = some shared ↔ ∃ (e : Expr) (es : List Expr) (k : Nat),
      caseExprs clauses = e :: es ∧ es ≠ [] ∧
      IsGreatest {n | SharedUpTo rule.equivalence.holds e.chain (es.map chain) n} k ∧
      rule.maxSharedSegments < k ∧ shared = e.chain.take k) ∧
    (rule.scan clauses = some shared → ∀ e ∈ caseExprs clauses, shared.length ≤ e.chain.length) := by
  rw [scan_iff, prefixOf]
  cases group : caseExprs clauses with
  | nil => simp
  | cons e es =>
    have initial := shared_by_all_initial rule.equivalence.holds e.chain (es.map chain)
    have greatest := shared_by_all_greatest rule.equivalence.holds e.chain (es.map chain)
    simp only [List.map_cons]
    constructor
    · constructor
      · rintro ⟨many, long, rfl⟩
        refine ⟨e, es, _, rfl, ?_, greatest, long, List.prefix_iff_eq_take.mp initial⟩
        rintro rfl
        simp at many
      · rintro ⟨e', es', k, cases, several, maximal, long, rfl⟩
        obtain ⟨rfl, rfl⟩ := List.cons.inj cases
        have length := greatest.unique maximal
        refine ⟨?_, length ▸ long, ?_⟩
        · have positive := List.length_pos_iff.mpr several
          simp only [List.length_cons]
          omega
        · rw [← length]
          exact (List.prefix_iff_eq_take.mp initial).symm
    · rintro ⟨_, _, rfl⟩ d hd
      rcases List.mem_cons.mp hd with rfl | hd
      · exact greatest.1.1
      · obtain ⟨_, short, _⟩ := greatest.1.2 d.chain (List.mem_map_of_mem hd)
        exact short

/-! ### Syntactic identity -/

/-- Prefixes of which the same is said: they have the same segments up to ranges, and the same text. -/
structure Alike (shared shared' : List Expr) : Prop where
  length : shared.length = shared'.length
  segments : List.Forall₂ (fun x y => same x y = true) shared shared'
  texts : shared.map text = shared'.map text
  message : message (chainText shared) = message (chainText shared')
  advice : advice (chainText shared) = advice (chainText shared')

theorem alike_of_bare {shared shared' : List Expr} (same : shared.map bare = shared'.map bare) :
    Alike shared shared' where
  length := by simpa using congrArg List.length same
  segments := (same_places_iff_bare shared shared').mpr same
  texts := texts_of_same_places same
  message := congrArg LongChain.message (chainText_of_same_places same)
  advice := congrArg LongChain.advice (chainText_of_same_places same)

theorem common_iff_prefixOf (rule : LongChain) (structural : rule.equivalence = .structural)
    (clauses : List Clause) (several : caseExprs clauses ≠ []) (common : List Expr) :
    common <+: (rule.prefixOf clauses).map bare ↔
      ∀ e ∈ (caseExprs clauses).map bare, common <+: e.chain := by
  have chains : (∀ e ∈ (caseExprs clauses).map bare, common <+: e.chain) ↔
      ∀ c ∈ (caseExprs clauses).map chain, common <+: c.map bare := by
    simp only [List.forall_mem_map, chain_bare]
  rw [chains, prefixOf]
  cases group : (caseExprs clauses).map chain with
  | nil => exact absurd (List.map_eq_nil_iff.mp group) several
  | cons first others =>
    simp only [structural, Equivalence.structural]
    exact common_iff_shared_by_all common first others

/-- Cases that are added, wherever they stand, can only shorten what all have in common. -/
theorem prefixOf_antitone (rule : LongChain) (structural : rule.equivalence = .structural)
    (a b : List Clause) (several : caseExprs a ≠ [])
    (more : (caseExprs a).map bare ⊆ (caseExprs b).map bare) :
    (rule.prefixOf b).map bare <+: (rule.prefixOf a).map bare := by
  have several' : caseExprs b ≠ [] := by
    rintro none
    rw [none, List.map_nil, List.subset_nil] at more
    exact several (List.map_eq_nil_iff.mp more)
  rw [common_iff_prefixOf rule structural a several]
  intro e he
  exact (common_iff_prefixOf rule structural b several' _).mp List.prefix_rfl e (more he)

theorem prefixOf_order_independent (rule : LongChain) (structural : rule.equivalence = .structural)
    (a b : List Clause) (permuted : ((caseExprs a).map bare).Perm ((caseExprs b).map bare)) :
    (rule.prefixOf a).map bare = (rule.prefixOf b).map bare := by
  by_cases empty : caseExprs a = []
  · have empty' : caseExprs b = [] := by simpa [empty] using permuted
    simp only [prefixOf, empty, empty']
  · have empty' : caseExprs b ≠ [] := by
      intro none
      exact empty (by simpa [none] using permuted)
    have below := prefixOf_antitone rule structural b a empty' permuted.symm.subset
    have above := prefixOf_antitone rule structural a b empty permuted.subset
    exact below.eq_of_length_le above.length_le

/-- Under syntactic identity the order of the cases and their grouping into clauses play no part, and
further cases never lead to a report, nor to a longer prefix. Cases may stand at other places: the
groups are compared without their ranges. -/
theorem scan_order_independent (rule : LongChain) (structural : rule.equivalence = .structural)
    (a b : List Clause) :
    (((caseExprs a).map bare).Perm ((caseExprs b).map bare) →
      Option.Rel Alike (rule.scan a) (rule.scan b)) ∧
    (2 ≤ (caseExprs a).length → ((caseExprs a).map bare).Sublist ((caseExprs b).map bare) →
      ∀ shared', rule.scan b = some shared' →
        ∃ shared, rule.scan a = some shared ∧ shared'.length ≤ shared.length) := by
  constructor
  · intro permuted
    have count : (caseExprs a).length = (caseExprs b).length := by simpa using permuted.length_eq
    have same := prefixOf_order_independent rule structural a b permuted
    have length : (rule.prefixOf a).length = (rule.prefixOf b).length := by
      simpa using congrArg List.length same
    rw [scan_eq, scan_eq, count, length]
    split
    · exact .some (alike_of_bare same)
    · exact .none
  · intro many inserted shared' reported
    obtain ⟨_, long, rfl⟩ := (scan_iff rule b shared').mp reported
    have several : caseExprs a ≠ [] := List.length_pos_iff.mp (by omega)
    have shorter : (rule.prefixOf b).length ≤ (rule.prefixOf a).length := by
      simpa using (prefixOf_antitone rule structural a b several inserted.subset).length_le
    refine ⟨rule.prefixOf a, ?_, shorter⟩
    exact (scan_iff rule a _).mpr ⟨many, Nat.lt_of_lt_of_le long shorter, rfl⟩

/-- The expression `cfg.Srv.Opts.field`, read at some place. -/
def optionOf (field : String) (place : Nat) : Expr :=
  let word (name : String) : Expr := .ident name ⟨place, place + name.length, 1, place + 1⟩
  ofChain (word "cfg") [word "Srv", word "Opts", word field]

/-- Two cases in one clause. -/
def casesTogether : List Clause :=
  [.mk (some [optionOf "Timeout" 10, optionOf "Retries" 30]) [] Span.zero]

/-- The same cases at other places, in another order and around a default clause. -/
def casesApart : List Clause :=
  [.mk (some [optionOf "Retries" 5]) [] Span.zero, .mk none [] Span.zero,
    .mk (some [optionOf "Timeout" 40]) [.simple Span.zero] Span.zero]

/-- A third case before them. -/
def casesMore : List Clause := .mk (some [optionOf "Backoff" 70]) [] Span.zero :: casesTogether

theorem scan_order_independent_of_options :
    Option.Rel Alike (({} : LongChain).scan casesTogether) (({} : LongChain).scan casesApart) ∧
      (({} : LongChain).scan casesMore).isSome = true ∧
      ∀ shared', ({} : LongChain).scan casesMore = some shared' →
        ∃ shared, ({} : LongChain).scan casesTogether = some shared ∧
          shared'.length ≤ shared.length := by
  have permuted : ((caseExprs casesTogether).map bare).Perm ((caseExprs casesApart).map bare) :=
    List.Perm.swap _ _ []
  have inserted : ((caseExprs casesTogether).map bare).Sublist ((caseExprs casesMore).map bare) :=
    List.sublist_cons_self _ _
  refine ⟨(scan_order_independent {} rfl casesTogether casesApart).1 permuted, rfl, ?_⟩
  exact (scan_order_independent {} rfl casesTogether casesMore).2 (by decide) inserted

end SwitchLint.LongChain
