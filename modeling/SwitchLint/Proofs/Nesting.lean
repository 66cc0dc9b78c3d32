import Mathlib.Data.List.Basic
import SwitchLint.Syntax.Basic

/-!
Where statements stand. An address is a list of numbers: the first picks a statement of a body, each
further one a statement one level further in. The order of addresses is that of the text, with a
statement before those inside it. Walking all statements in preorder meets every address exactly once
and in this order.
-/

namespace SwitchLint

namespace Stmt

/-- The statement that an address leads to from inside a statement. -/
def inside? (s : Stmt) : List Nat → Option Stmt
  | [] => some s
  | i :: address => s.nested[i]?.bind (inside? · address)

/-- The statements that `look` finds in each of a list, with addresses that start from the list. -/
def numbered (look : Stmt → List (List Nat × Stmt)) (stmts : List Stmt) : List (List Nat × Stmt) :=
  stmts.zipIdx.flatMap fun (s, i) => (look s).map fun (address, t) => (i :: address, t)

/-- The statement and all statements inside it with their addresses, in preorder. -/
def located (s : Stmt) : List (List Nat × Stmt) :=
  ([], s) :: s.nested.zipIdx.attach.flatMap fun ⟨(t, i), _⟩ =>
    (located t).map fun (address, u) => (i :: address, u)
termination_by sizeOf s
decreasing_by exact sizeOf_nested (List.fst_mem_of_mem_zipIdx ‹_›)

/-- What holds of a statement whenever it holds of all one level further in holds of every statement. -/
theorem nested_induction {motive : Stmt → Prop}
    (step : ∀ s, (∀ t ∈ s.nested, motive t) → motive s) (s : Stmt) : motive s :=
  step s fun t _ => nested_induction step t
termination_by sizeOf s
decreasing_by exact sizeOf_nested ‹_›

theorem located_eq (s : Stmt) : s.located = ([], s) :: numbered located s.nested := by
  rw [located, numbered]
  conv_rhs => rw [← List.attach_map_subtype_val s.nested.zipIdx, List.flatMap_map]

/-! ### Preorder -/

theorem preorderList_eq (stmts : List Stmt) : preorderList stmts = stmts.flatMap preorder := by
  induction stmts with
  | nil => rfl
  | cons s stmts ih => rw [preorderList, List.flatMap_cons, ih]

theorem preorderClauses_eq (clauses : List Clause) :
    preorderClauses clauses = (clauses.flatMap Clause.body).flatMap preorder := by
  induction clauses with
  | nil => rfl
  | cons c clauses ih =>
    cases c with | mk exprs body span =>
    rw [preorderClauses, ih, preorderList_eq, List.flatMap_cons, List.flatMap_append]
    rfl

theorem preorderBlocks_eq (blocks : List Block) :
    preorderBlocks blocks = (blocks.flatMap Block.stmts).flatMap preorder := by
  induction blocks with
  | nil => rfl
  | cons b blocks ih =>
    cases b with | mk stmts span =>
    rw [preorderBlocks, ih, preorderList_eq, List.flatMap_cons, List.flatMap_append]
    rfl

theorem preorder_eq (s : Stmt) : s.preorder = s :: s.nested.flatMap preorder := by
  cases s with
  | switch clauses span => rw [preorder, preorderClauses_eq, nested]
  | compound kind blocks span => rw [preorder, preorderBlocks_eq, nested]
  | simple span => rfl

/-! ### Addresses -/

theorem mem_numbered (look : Stmt → List (List Nat × Stmt)) (stmts : List Stmt)
    (address : List Nat) (t : Stmt) : (address, t) ∈ numbered look stmts ↔
      ∃ i inner s, address = i :: inner ∧ stmts[i]? = some s ∧ (inner, t) ∈ look s := by
  simp only [numbered, List.mem_flatMap, List.mem_map, Prod.exists, List.mem_zipIdx_iff_getElem?,
    Prod.mk.injEq]
  constructor
  · rintro ⟨s, i, hs, inner, u, hu, rfl, rfl⟩
    exact ⟨i, inner, s, rfl, hs, hu⟩
  · rintro ⟨i, inner, s, rfl, hs, ht⟩
    exact ⟨s, i, hs, inner, t, ht, rfl, rfl⟩

theorem numbered_ordered (look : Stmt → List (List Nat × Stmt)) (stmts : List Stmt)
    (ordered : ∀ s ∈ stmts, (look s).Pairwise fun a b => a.1 < b.1) :
    (numbered look stmts).Pairwise fun a b => a.1 < b.1 := by
  rw [numbered, List.pairwise_flatMap]
  constructor
  · rintro ⟨s, i⟩ hs
    rw [List.pairwise_map]
    refine (ordered s (List.fst_mem_of_mem_zipIdx hs)).imp ?_
    intro a b less
    exact List.cons_lt_cons_iff.mpr (.inr ⟨rfl, less⟩)
  · have increasing : stmts.zipIdx.Pairwise fun a b => a.2 < b.2 := by
      rw [← List.pairwise_map, List.zipIdx_map_snd]
      exact List.pairwise_lt_range'
    refine increasing.imp ?_
    rintro ⟨s, i⟩ ⟨t, j⟩ less _ hx _ hy
    obtain ⟨x, _, rfl⟩ := List.mem_map.mp hx
    obtain ⟨y, _, rfl⟩ := List.mem_map.mp hy
    exact List.cons_lt_cons_iff.mpr (.inl less)

theorem numbered_stmts (look : Stmt → List (List Nat × Stmt)) (stmts : List Stmt) :
    (numbered look stmts).map Prod.snd = stmts.flatMap fun s => (look s).map Prod.snd := by
  rw [numbered, List.map_flatMap]
  conv_rhs => rw [← List.zipIdx_map_fst 0 stmts, List.flatMap_map]
  simp only [List.map_map]
  rfl

theorem located_stmts (s : Stmt) : s.located.map Prod.snd = s.preorder := by
  induction s using nested_induction with
  | step s ih =>
    rw [located_eq, preorder_eq, List.map_cons, numbered_stmts]
    exact congrArg (s :: ·) (List.flatMap_congr ih)

theorem located_ordered (s : Stmt) : s.located.Pairwise fun a b => a.1 < b.1 := by
  induction s using nested_induction with
  | step s ih =>
    rw [located_eq, List.pairwise_cons]
    refine ⟨?_, numbered_ordered located s.nested ih⟩
    rintro ⟨address, t⟩ ht
    obtain ⟨i, inner, _, rfl, _⟩ := (mem_numbered located s.nested address t).mp ht
    exact List.nil_lt_cons i inner

theorem mem_located (s t : Stmt) (address : List Nat) :
    (address, t) ∈ s.located ↔ s.inside? address = some t := by
  induction address generalizing s with
  | nil =>
    rw [located_eq]
    simp [mem_numbered, inside?, eq_comm]
  | cons i inner ih =>
    rw [located_eq]
    simp only [List.mem_cons, Prod.mk.injEq, reduceCtorEq, false_and, false_or, mem_numbered, inside?,
      Option.bind_eq_some_iff]
    constructor
    · rintro ⟨_, _, u, hi, hu, ht⟩
      cases hi
      exact ⟨u, hu, (ih u).mp ht⟩
    · rintro ⟨u, hu, ht⟩
      exact ⟨i, inner, u, rfl, hu, (ih u).mpr ht⟩

end Stmt

/-- The statement of a body that an address leads to. -/
def Block.stmtAt? (body : Block) : List Nat → Option Stmt
  | [] => none
  | i :: address => body.stmts[i]?.bind (·.inside? address)

end SwitchLint
