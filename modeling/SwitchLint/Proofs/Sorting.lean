import Mathlib.Data.List.Basic
import SwitchLint.Proofs.Paths
import SwitchLint.Report.Basic

/-!
Sorting that keeps the order of equals, and the order of places that findings are sorted by. Of lists
none of which has to give way to an earlier one, the sorted whole is made of the sorted lists, one after
the other.
-/

namespace SwitchLint

/-! ### The order of places -/

section Comparison

variable {α : Type} {cmp : α → α → Ordering}

theorem not_gt_iff (a b : α) : (cmp a b != .gt) = true ↔ (cmp a b).isLE = true := by
  cases cmp a b <;> decide

variable [Std.TransCmp cmp]

theorem not_gt_trans (a b c : α) (ab : (cmp a b != .gt) = true) (bc : (cmp b c != .gt) = true) :
    (cmp a c != .gt) = true := by
  rw [not_gt_iff] at *
  exact Std.TransCmp.isLE_trans ab bc

theorem not_gt_total (a b : α) : (cmp a b != .gt || cmp b a != .gt) = true := by
  have reversed : (cmp a b).isGE = true ↔ (cmp b a).isLE = true := Std.OrientedCmp.isGE_iff_isLE
  rw [Bool.or_eq_true, not_gt_iff, not_gt_iff, ← reversed]
  cases cmp a b <;> simp

end Comparison

namespace Location

/-- Does the first place, in the same file, come no later than the second? -/
def leWithin (a b : Location) : Bool :=
  (Ord.compare a.line b.line).then (Ord.compare a.column b.column) != .gt

instance : Std.TransCmp compare :=
  inferInstanceAs (Std.TransCmp (compareLex
    (compareLex (compareOn fun l : Location => (Path.components l.file).map Component.key)
      (compareOn line))
    (compareOn column)))

/-- All that the order looks at: the components of the path, the line and the column. -/
def key (l : Location) : List Component × Nat × Nat := (Path.components l.file, l.line, l.column)

theorem compare_eq_iff (a b : Location) : a.compare b = .eq ↔ a.key = b.key := by
  simp [compare, key, Ordering.then_eq_eq, Path.compare_eq_iff, and_assoc]

theorem le_trans (a b c : Location) (ab : a.le b = true) (bc : b.le c = true) : a.le c = true :=
  not_gt_trans a b c ab bc

theorem le_total (a b : Location) : (a.le b || b.le a) = true := not_gt_total a b

theorem key_of_le_le {a b : Location} (ab : a.le b = true) (ba : b.le a = true) : a.key = b.key := by
  unfold le at ab ba
  rw [not_gt_iff] at ab ba
  exact (compare_eq_iff a b).mp (Std.OrientedCmp.isLE_antisymm ab ba)

theorem le_of_key {a b : Location} (same : a.key = b.key) : a.le b = true := by
  have equal := (compare_eq_iff a b).mpr same
  rw [le, equal]
  rfl

theorem le_of_file_lt {a b : Location} (less : Path.compare a.file b.file = .lt) :
    a.le b = true := by
  simp [le, compare, less]

theorem le_of_same_file {a b : Location} (same : a.file = b.file) : a.le b = a.leWithin b := by
  have equal : Path.compare a.file b.file = .eq := by rw [same]; exact Std.ReflCmp.compare_self
  rw [le, leWithin, compare, equal, Ordering.then_assoc]
  rfl

end Location

/-! ### Sorting lists one after the other -/

variable {α : Type} {le : α → α → Bool}

/-- There is one place where an element goes among others: behind those that come strictly before it
and in front of the rest. -/
theorem insertion_unique {a : α} {before after before' after' : List α}
    (same : before ++ after = before' ++ after')
    (less : ∀ b ∈ before, le a b = false) (more : ∀ b ∈ after, le a b = true)
    (less' : ∀ b ∈ before', le a b = false) (more' : ∀ b ∈ after', le a b = true) :
    before = before' ∧ after = after' := by
  have none {gap : List α} (strict : ∀ b ∈ gap, le a b = false) (weak : ∀ b ∈ gap, le a b = true) :
      gap = [] :=
    List.eq_nil_iff_forall_not_mem.mpr fun b hb =>
      Bool.false_ne_true ((strict b hb).symm.trans (weak b hb))
  rcases List.append_eq_append_iff.mp same with ⟨gap, rfl, rfl⟩ | ⟨gap, rfl, rfl⟩
  · have empty : gap = [] := none (fun b hb => less' b (List.mem_append_right before hb))
      (fun b hb => more b (List.mem_append_left after' hb))
    simp [empty]
  · have empty : gap = [] := none (fun b hb => less b (List.mem_append_right before' hb))
      (fun b hb => more' b (List.mem_append_left after hb))
    simp [empty]

theorem mergeSort_congr {le' : α → α → Bool} {xs : List α}
    (same : ∀ x ∈ xs, ∀ y ∈ xs, le x y = le' x y) : xs.mergeSort le = xs.mergeSort le' := by
  simpa using List.map_mergeSort (f := id) same

variable (trans : ∀ a b c, le a b = true → le b c = true → le a c = true)
  (total : ∀ a b, (le a b || le b a) = true)

include trans total

/-- Sorting puts the first element between those that come strictly before it and the rest. -/
theorem mergeSort_insertion (a : α) (xs : List α) :
    ∃ before after, (a :: xs).mergeSort le = before ++ a :: after ∧
      xs.mergeSort le = before ++ after ∧ (∀ b ∈ before, le a b = false) ∧
      ∀ b ∈ after, le a b = true := by
  obtain ⟨before, after, whole, others, less⟩ := List.mergeSort_cons trans total a xs
  have sorted := List.pairwise_mergeSort trans total (a :: xs)
  rw [whole] at sorted
  refine ⟨before, after, whole, others, by simpa using less, ?_⟩
  intro b hb
  exact List.rel_of_pairwise_cons (List.pairwise_append.mp sorted).2.1 hb

theorem mergeSort_append_of_le (xs ys : List α) (ordered : ∀ x ∈ xs, ∀ y ∈ ys, le x y = true) :
    (xs ++ ys).mergeSort le = xs.mergeSort le ++ ys.mergeSort le := by
  induction xs with
  | nil => simp
  | cons a xs ih =>
    obtain ⟨before, after, whole, others, less, more⟩ := mergeSort_insertion trans total a (xs ++ ys)
    obtain ⟨before', after', part, others', less', more'⟩ := mergeSort_insertion trans total a xs
    have more'' : ∀ b ∈ after' ++ ys.mergeSort le, le a b = true := by
      intro b hb
      rcases List.mem_append.mp hb with hb | hb
      · exact more' b hb
      · exact ordered a List.mem_cons_self b (List.mem_mergeSort.mp hb)
    have same : before ++ after = before' ++ (after' ++ ys.mergeSort le) := by
      rw [← others, ih fun x hx => ordered x (List.mem_cons_of_mem a hx), others',
        List.append_assoc]
    obtain ⟨rfl, rfl⟩ := insertion_unique same less more less' more''
    rw [List.cons_append, whole, part, List.append_assoc, List.cons_append]

/-- What is left out may as well be left out before. -/
theorem mergeSort_filter (p : α → Bool) (xs : List α) :
    (xs.filter p).mergeSort le = (xs.mergeSort le).filter p := by
  induction xs with
  | nil => simp
  | cons a xs ih =>
    obtain ⟨before, after, whole, others, less, more⟩ := mergeSort_insertion trans total a xs
    by_cases kept : p a = true
    · obtain ⟨before', after', part, others', less', more'⟩ :=
        mergeSort_insertion trans total a (xs.filter p)
      have same : before' ++ after' = before.filter p ++ after.filter p := by
        rw [← others', ih, others, List.filter_append]
      have strict : ∀ b ∈ before.filter p, le a b = false :=
        fun b hb => less b (List.mem_of_mem_filter hb)
      have weak : ∀ b ∈ after.filter p, le a b = true :=
        fun b hb => more b (List.mem_of_mem_filter hb)
      obtain ⟨rfl, rfl⟩ := insertion_unique same less' more' strict weak
      rw [List.filter_cons_of_pos kept, part, whole, List.filter_append, List.filter_cons_of_pos kept]
    · rw [List.filter_cons_of_neg kept, ih, others, whole, List.filter_append, List.filter_append,
        List.filter_cons_of_neg kept]

theorem mergeSort_flatMap_of_le {β : Type} (f : β → List α) (groups : List β)
    (ordered : groups.Pairwise fun g h => ∀ x ∈ f g, ∀ y ∈ f h, le x y = true) :
    (groups.flatMap f).mergeSort le = groups.flatMap fun g => (f g).mergeSort le := by
  induction groups with
  | nil => simp
  | cons g groups ih =>
    obtain ⟨head, tail⟩ := List.pairwise_cons.mp ordered
    rw [List.flatMap_cons, List.flatMap_cons, mergeSort_append_of_le trans total, ih tail]
    intro x hx y hy
    obtain ⟨h, hh, hy⟩ := List.mem_flatMap.mp hy
    exact head h hh x hx y hy

omit trans total

/-! ### Sorting reports -/

theorem Report.sort_sorted (r : Report) :
    r.sort.violations.Pairwise fun v w => v.location.le w.location = true := by
  apply List.pairwise_mergeSort
  · intro u v w
    exact Location.le_trans u.location v.location w.location
  · intro v w
    exact Location.le_total v.location w.location

theorem Report.sort_filter (r : Report) (p : Violation → Bool) :
    { r with violations := r.violations.filter p }.sort =
      { r.sort with violations := r.sort.violations.filter p } := by
  have commutes : (r.violations.filter p).mergeSort (fun v w => v.location.le w.location) =
      (r.violations.mergeSort fun v w => v.location.le w.location).filter p := by
    apply mergeSort_filter
    · intro u v w
      exact Location.le_trans u.location v.location w.location
    · intro v w
      exact Location.le_total v.location w.location
  exact congrArg (fun vs => (⟨vs, r.filesChecked⟩ : Report)) commutes

/-- Two sorted arrangements of the same findings have the same places, one after the other. -/
theorem sorted_keys_unique {vs ws : List Violation} (same : vs.Perm ws)
    (sorted : vs.Pairwise fun v w => v.location.le w.location = true)
    (sorted' : ws.Pairwise fun v w => v.location.le w.location = true) :
    vs.map (·.location.key) = ws.map (·.location.key) := by
  let notAfter (k k' : List Component × Nat × Nat) : Prop :=
    ∃ a b : Location, a.key = k ∧ b.key = k' ∧ a.le b = true
  have ordered {us : List Violation} (h : us.Pairwise fun v w => v.location.le w.location = true) :
      (us.map (·.location.key)).Pairwise notAfter := by
    rw [List.pairwise_map]
    refine h.imp ?_
    intro v w hvw
    exact ⟨v.location, w.location, rfl, rfl, hvw⟩
  refine List.Perm.eq_of_pairwise ?_ (ordered sorted) (ordered sorted') (same.map _)
  rintro k k' - - ⟨a, b, rfl, rfl, ab⟩ ⟨c, d, hc, hd, cd⟩
  have bc := Location.le_of_key hc.symm
  have da := Location.le_of_key hd
  have ba := Location.le_trans b d a (Location.le_trans b c d bc cd) da
  exact Location.key_of_le_le ab ba

end SwitchLint
