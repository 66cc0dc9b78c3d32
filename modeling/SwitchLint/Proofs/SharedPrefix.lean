import Mathlib.Order.Bounds.Basic
import SwitchLint.Proofs.Spine
import SwitchLint.Rule.LongChain

/-!
The prefix that several chains share, under any way of comparing segments. No law is assumed of the
comparison, so every chain is held against the first one and never against another. Under syntactic
identity the prefix is, up to ranges, the longest that all chains begin with, and two expressions are the
same exactly if they share the whole of their chains.
-/

namespace SwitchLint

/-- The first `n` segments of one chain match those of another, place by place. -/
def AgreeUpTo (holds : Expr → Expr → Bool) (n : Nat) (xs ys : List Expr) : Prop :=
  ∃ (_ : n ≤ xs.length) (_ : n ≤ ys.length), ∀ (i : Nat) (_ : i < n), holds xs[i] ys[i] = true

/-- All the others match the first `n` segments of the first chain. -/
def SharedUpTo (holds : Expr → Expr → Bool) (first : List Expr) (others : List (List Expr))
    (n : Nat) : Prop :=
  n ≤ first.length ∧ ∀ other ∈ others, AgreeUpTo holds n first other

variable (holds : Expr → Expr → Bool)

theorem agree_up_to_zero (xs ys : List Expr) : AgreeUpTo holds 0 xs ys :=
  ⟨Nat.zero_le _, Nat.zero_le _, fun _ h => absurd h (Nat.not_lt_zero _)⟩

theorem agree_up_to_succ (n : Nat) (x y : Expr) (xs ys : List Expr) :
    AgreeUpTo holds (n + 1) (x :: xs) (y :: ys) ↔ holds x y = true ∧ AgreeUpTo holds n xs ys := by
  constructor
  · rintro ⟨hx, hy, agree⟩
    refine ⟨agree 0 (Nat.succ_pos n), Nat.le_of_succ_le_succ hx, Nat.le_of_succ_le_succ hy, ?_⟩
    intro i hi
    exact agree (i + 1) (Nat.succ_lt_succ hi)
  · rintro ⟨head, hx, hy, tail⟩
    refine ⟨Nat.succ_le_succ hx, Nat.succ_le_succ hy, ?_⟩
    intro i hi
    cases i with
    | zero => exact head
    | succ i => exact tail i (Nat.lt_of_succ_lt_succ hi)

/-- A prefix of a chain agrees with another as far as the chain does, up to its own length. -/
theorem agree_cut_short {n : Nat} {xs pre : List Expr} (ys : List Expr) (initial : pre <+: xs)
    (long : n ≤ pre.length) : AgreeUpTo holds n pre ys ↔ AgreeUpTo holds n xs ys := by
  have short := initial.length_le
  constructor
  · rintro ⟨_, hy, agree⟩
    refine ⟨Nat.le_trans long short, hy, ?_⟩
    intro i hi
    rw [← initial.getElem (Nat.lt_of_lt_of_le hi long)]
    exact agree i hi
  · rintro ⟨_, hy, agree⟩
    refine ⟨long, hy, ?_⟩
    intro i hi
    rw [initial.getElem (Nat.lt_of_lt_of_le hi long)]
    exact agree i hi

/-! ### Two chains -/

theorem shared_prefix_initial (xs ys : List Expr) : sharedPrefix holds xs ys <+: xs := by
  induction xs generalizing ys with
  | nil => exact List.prefix_rfl
  | cons x xs ih =>
    cases ys with
    | nil => exact List.nil_prefix
    | cons y ys =>
      simp only [sharedPrefix]
      split
      · exact List.cons_prefix_cons.mpr ⟨rfl, ih ys⟩
      · exact List.nil_prefix

theorem agree_iff_le_shared (n : Nat) (xs ys : List Expr) :
    AgreeUpTo holds n xs ys ↔ n ≤ (sharedPrefix holds xs ys).length := by
  induction xs generalizing ys n with
  | nil =>
    constructor
    · rintro ⟨hx, _⟩
      exact hx
    · intro hx
      have none : n = 0 := Nat.le_zero.mp hx
      exact none ▸ agree_up_to_zero holds [] ys
  | cons x xs ih =>
    cases n with
    | zero => exact iff_of_true (agree_up_to_zero holds _ _) (Nat.zero_le _)
    | succ n =>
      cases ys with
      | nil =>
        constructor
        · rintro ⟨_, hy, _⟩
          exact absurd hy (Nat.not_succ_le_zero n)
        · intro hy
          exact absurd hy (Nat.not_succ_le_zero n)
      | cons y ys =>
        rw [agree_up_to_succ, ih n ys]
        by_cases head : holds x y = true
        · simp [sharedPrefix, head]
        · simp [sharedPrefix, head]

/-! ### Any number of chains -/

theorem shared_by_all_initial (first : List Expr) (others : List (List Expr)) :
    LongChain.sharedByAll holds first others <+: first := by
  induction others generalizing first with
  | nil => exact List.prefix_rfl
  | cons other others ih =>
    exact (ih (sharedPrefix holds first other)).trans (shared_prefix_initial holds first other)

/-- The fold keeps a prefix of the first chain, so what the next chain is compared with is still the
first chain, cut short. -/
theorem shared_iff_le_shared_by_all (n : Nat) (first : List Expr) (others : List (List Expr)) :
    SharedUpTo holds first others n ↔ n ≤ (LongChain.sharedByAll holds first others).length := by
  induction others generalizing first with
  | nil => simp [SharedUpTo, LongChain.sharedByAll]
  | cons other others ih =>
    have initial := shared_prefix_initial holds first other
    have step : SharedUpTo holds first (other :: others) n ↔
        SharedUpTo holds (sharedPrefix holds first other) others n := by
      simp only [SharedUpTo, List.forall_mem_cons]
      constructor
      · rintro ⟨_, agree, rest⟩
        have long := (agree_iff_le_shared holds n first other).mp agree
        exact ⟨long, fun o ho => (agree_cut_short holds o initial long).mpr (rest o ho)⟩
      · rintro ⟨long, rest⟩
        exact ⟨Nat.le_trans long initial.length_le, (agree_iff_le_shared holds n first other).mpr long,
          fun o ho => (agree_cut_short holds o initial long).mp (rest o ho)⟩
    exact step.trans (ih (sharedPrefix holds first other))

theorem shared_by_all_greatest (first : List Expr) (others : List (List Expr)) :
    IsGreatest {n | SharedUpTo holds first others n}
      (LongChain.sharedByAll holds first others).length := by
  constructor
  · exact (shared_iff_le_shared_by_all holds _ first others).mpr (Nat.le_refl _)
  · intro n shared
    exact (shared_iff_le_shared_by_all holds n first others).mp shared

/-! ### Syntactic identity -/

theorem common_iff_shared (common xs ys : List Expr) :
    common <+: (sharedPrefix Expr.same xs ys).map Expr.bare ↔
      common <+: xs.map Expr.bare ∧ common <+: ys.map Expr.bare := by
  induction xs generalizing ys common with
  | nil =>
    simp only [sharedPrefix, List.map_nil, List.prefix_nil]
    constructor
    · rintro rfl
      exact ⟨rfl, List.nil_prefix⟩
    · exact And.left
  | cons x xs ih =>
    cases ys with
    | nil =>
      simp only [sharedPrefix, List.map_nil, List.prefix_nil]
      constructor
      · rintro rfl
        exact ⟨List.nil_prefix, rfl⟩
      · exact And.right
    | cons y ys =>
      cases common with
      | nil => simp
      | cons c common =>
        by_cases head : Expr.same x y = true
        · have erased := (same_iff_bare x y).mp head
          simp only [sharedPrefix, if_pos head, List.map_cons, List.cons_prefix_cons, ih common ys]
          rw [← erased]
          exact and_and_left
        · -- Nothing is shared, and no segment equals both heads.
          simp only [sharedPrefix, if_neg head, List.map_nil, List.prefix_nil, List.map_cons,
            List.cons_prefix_cons, reduceCtorEq, false_iff]
          rintro ⟨⟨hx, _⟩, hy, _⟩
          exact head ((same_iff_bare x y).mpr (hx.symm.trans hy))

/-- The fold computes a greatest lower bound, and such a bound does not depend on an order. -/
theorem common_iff_shared_by_all (common first : List Expr) (others : List (List Expr)) :
    common <+: (LongChain.sharedByAll Expr.same first others).map Expr.bare ↔
      ∀ chain ∈ first :: others, common <+: chain.map Expr.bare := by
  induction others generalizing first with
  | nil => simp [LongChain.sharedByAll]
  | cons other others ih =>
    have step := ih (sharedPrefix Expr.same first other)
    rw [List.forall_mem_cons, common_iff_shared] at step
    simp only [List.forall_mem_cons]
    exact step.trans and_assoc

/-! ### Chains that are shared as a whole -/

theorem bare_iff_chains (a b : Expr) : a.bare = b.bare ↔ a.chain.map Expr.bare = b.chain.map Expr.bare := by
  constructor
  · intro same
    rw [← chain_bare, ← chain_bare, same]
  · intro same
    obtain ⟨root, fields, segments, -⟩ := chain_root a
    obtain ⟨root', fields', segments', -⟩ := chain_root b
    rw [segments, segments'] at same
    obtain ⟨roots, others⟩ := List.cons.inj same
    rw [← bare_refold a root fields segments, ← bare_refold b root' fields' segments']
    exact bare_ofChain_congr roots others

theorem shares_whole_iff (xs ys : List Expr) :
    (xs.length = ys.length ∧ (sharedPrefix Expr.same xs ys).length = xs.length) ↔
      xs.map Expr.bare = ys.map Expr.bare := by
  constructor
  · rintro ⟨lengths, whole⟩
    have all := (shared_prefix_initial Expr.same xs ys).eq_of_length whole
    have common := (common_iff_shared _ xs ys).mp List.prefix_rfl
    rw [all] at common
    exact common.2.eq_of_length (by simpa using lengths)
  · intro same
    have lengths : xs.length = ys.length := by simpa using congrArg List.length same
    have common : xs.map Expr.bare <+: (sharedPrefix Expr.same xs ys).map Expr.bare :=
      (common_iff_shared _ xs ys).mpr ⟨List.prefix_rfl, same ▸ List.prefix_rfl⟩
    have long : xs.length ≤ (sharedPrefix Expr.same xs ys).length := by simpa using common.length_le
    exact ⟨lengths, Nat.le_antisymm (shared_prefix_initial Expr.same xs ys).length_le long⟩

/-- Syntactic identity is equality but for the ranges, so it is an equivalence and the printer respects
it; and chains are faithful to it. -/
theorem same_iff_bare_iff_chains :
    (∀ a b : Expr, (Expr.same a b = true ↔ a.bare = b.bare) ∧
      (Expr.same a b = true ↔ a.chain.length = b.chain.length ∧
        (sharedPrefix Expr.same a.chain b.chain).length = a.chain.length) ∧
      (Expr.same a b = true → a.text = b.text)) ∧
    (∀ a : Expr, Expr.same a a = true) ∧
    (∀ a b : Expr, Expr.same a b = true → Expr.same b a = true) ∧
    ∀ a b c : Expr, Expr.same a b = true → Expr.same b c = true → Expr.same a c = true := by
  refine ⟨fun a b => ⟨same_iff_bare a b, ?_, fun same => ?_⟩, fun a => ?_, fun a b => ?_, fun a b c => ?_⟩
  · rw [same_iff_bare, bare_iff_chains, shares_whole_iff]
  · rw [← text_bare a, (same_iff_bare a b).mp same, text_bare]
  · exact (same_iff_bare a a).mpr rfl
  · simp only [same_iff_bare]
    exact Eq.symm
  · simp only [same_iff_bare]
    exact Eq.trans

/-- The expression `f().a.b`, with its fields on some line. -/
def chosenOn (line : Nat) : Expr :=
  Expr.ofChain callOfNothing [.ident "a" ⟨4, 5, line, 1⟩, .ident "b" ⟨6, 7, line, 3⟩]

theorem same_iff_bare_iff_chains_of_call :
    Expr.same (chosenOn 1) (chosenOn 2) = true ∧ Expr.same (chosenOn 2) (chosenOn 1) = true ∧
      Expr.same (chosenOn 1) (chosenOn 1) = true ∧ (chosenOn 1).text = (chosenOn 2).text := by
  have here : Expr.same (chosenOn 1) (chosenOn 2) = true := by decide
  obtain ⟨faithful, -, symmetric, transitive⟩ := same_iff_bare_iff_chains
  have back := symmetric _ _ here
  exact ⟨here, back, transitive _ _ _ here back, (faithful _ _).2.2 here⟩

end SwitchLint
