import SwitchLint.Proofs.Sorting

/-!
What sorting does to a report. The findings go by their files, component by component, then by line and
column; those that agree in all three stay in the order in which they were found. Nothing else is left
open: there is one such arrangement.
-/

namespace SwitchLint

/-! ### The order of files and places -/

/-- The first path comes before the second, component by component. -/
def Path.Precedes (a b : String) : Prop :=
  List.Lex (fun c d : Component => c.key < d.key) (components a) (components b)

instance (a b : String) : Decidable (Path.Precedes a b) :=
  inferInstanceAs (Decidable (List.Lex (fun c d : Component => c.key < d.key) _ _))

/-- The first place comes before the second: its file does or, in the same file, its line or, on the same
line, its column. -/
def Location.Precedes (a b : Location) : Prop :=
  Path.Precedes a.file b.file ∨ Path.components a.file = Path.components b.file ∧
    (a.line < b.line ∨ a.line = b.line ∧ a.column < b.column)

section

variable {α β : Type} [Ord β] [Std.LawfulEqOrd β] {f : α → β}

/-- Lists are compared at the first place where they differ. -/
theorem compare_map_eq_lt_iff (injective : Function.Injective f) (xs ys : List α) :
    Ord.compare (xs.map f) (ys.map f) = .lt ↔
      List.Lex (fun a b => Ord.compare (f a) (f b) = .lt) xs ys := by
  induction xs generalizing ys with
  | nil => cases ys <;> simp
  | cons x xs ih =>
    cases ys with
    | nil => simp
    | cons y ys =>
      rw [List.map_cons, List.map_cons, List.compare_cons_cons, Ordering.then_eq_lt, List.cons_lex_cons_iff,
        ih, Std.compare_eq_iff_eq, injective.eq_iff]

end

theorem Path.compare_eq_lt_iff (a b : String) : Path.compare a b = .lt ↔ Path.Precedes a b := by
  have keys (c d : Component) : Ord.compare c.key d.key = .lt ↔ c.key < d.key := by
    have less := compare_map_eq_lt_iff (f := id (α := Nat)) Function.injective_id c.key d.key
    rw [List.map_id, List.map_id] at less
    rw [less]
    simp only [id, Nat.compare_eq_lt]
    exact Iff.rfl
  rw [Path.compare, compare_map_eq_lt_iff key_injective]
  simp only [keys]
  exact Iff.rfl

namespace Location

theorem compare_eq_lt_iff (a b : Location) : a.compare b = .lt ↔ a.Precedes b := by
  rw [compare, Ordering.then_assoc, Ordering.then_eq_lt, Ordering.then_eq_lt, Path.compare_eq_lt_iff,
    Path.compare_eq_iff, Nat.compare_eq_lt, Nat.compare_eq_lt, Std.compare_eq_iff_eq]
  exact Iff.rfl

theorem le_iff (a b : Location) : a.le b = true ↔ ¬ b.Precedes a := by
  have reversed : a.compare b = .gt ↔ b.compare a = .lt := Std.OrientedCmp.gt_iff_lt
  rw [← compare_eq_lt_iff, ← reversed, le, bne_iff_ne]

end Location

/-! ### Arrangements of findings -/

/-- No finding stands behind one whose place comes after its own. -/
def InOrder (vs : List Violation) : Prop :=
  vs.Pairwise fun v w => ¬ w.location.Precedes v.location

/-- At each place, as files, lines and columns go, both lists have the same findings in the same order. -/
def SameTies (vs ws : List Violation) : Prop :=
  ∀ key, (vs.filter fun v => v.location.key = key) = ws.filter fun v => v.location.key = key

theorem inOrder_iff (vs : List Violation) :
    InOrder vs ↔ vs.Pairwise fun v w => v.location.le w.location = true := by
  simp only [InOrder, Location.le_iff]

theorem SameTies.perm {vs ws : List Violation} (same : SameTies vs ws) : vs.Perm ws := by
  rw [List.perm_iff_count]
  intro v
  have counted := congrArg (List.count v) (same v.location.key)
  rwa [List.count_filter (by simp), List.count_filter (by simp)] at counted

/-- Lists with the same keys in the same order, and the same members in the same order under each key,
are the same. -/
theorem eq_of_keys_of_filters {α κ : Type} [DecidableEq κ] (key : α → κ) {xs ys : List α}
    (keys : xs.map key = ys.map key)
    (same : ∀ k, (xs.filter fun x => key x = k) = ys.filter fun y => key y = k) : xs = ys := by
  induction xs generalizing ys with
  | nil => exact (List.map_eq_nil_iff.mp keys.symm).symm
  | cons x xs ih =>
    cases ys with
    | nil => cases keys
    | cons y ys =>
      obtain ⟨head, tail⟩ := List.cons.inj keys
      have first := same (key x)
      rw [List.filter_cons_of_pos (by simp), List.filter_cons_of_pos (by simp [head])] at first
      obtain ⟨rfl, others⟩ := List.cons.inj first
      refine congrArg (x :: ·) (ih tail fun k => ?_)
      by_cases here : key x = k
      · exact here ▸ others
      · simpa [here] using same k

/-- The order and the ties leave no choice. -/
theorem eq_of_inOrder {vs ws : List Violation} (ordered : InOrder vs) (ordered' : InOrder ws)
    (same : SameTies vs ws) : vs = ws :=
  eq_of_keys_of_filters (fun v : Violation => v.location.key)
    (sorted_keys_unique same.perm ((inOrder_iff vs).mp ordered) ((inOrder_iff ws).mp ordered')) same

namespace Report

theorem sort_inOrder (r : Report) : InOrder r.sort.violations :=
  (inOrder_iff _).mpr r.sort_sorted

/-- What is found at one place is in order as it is. -/
theorem sort_sameTies (r : Report) : SameTies r.sort.violations r.violations := by
  intro key
  have tied : (r.violations.filter fun v => v.location.key = key).Pairwise
      fun v w => v.location.le w.location = true := by
    refine List.pairwise_of_forall_mem_list fun v hv w hw => Location.le_of_key ?_
    rw [of_decide_eq_true (List.mem_filter.mp hv).2, of_decide_eq_true (List.mem_filter.mp hw).2]
  have commutes := congrArg violations (r.sort_filter fun v => v.location.key = key)
  exact commutes.symm.trans (List.mergeSort_of_pairwise tied)

theorem sort_idempotent (r : Report) : r.sort.sort = r.sort := by
  have same : r.sort.sort.violations = r.sort.violations :=
    eq_of_inOrder r.sort.sort_inOrder r.sort_inOrder r.sort.sort_sameTies
  exact congrArg (fun vs => (⟨vs, r.filesChecked⟩ : Report)) same

/-- Lists whose files come one after another are sorted list by list. -/
theorem sort_flatten (n : Nat) (groups : List (List Violation))
    (apart : groups.Pairwise fun g h =>
      ∀ v ∈ g, ∀ w ∈ h, Path.Precedes v.location.file w.location.file) :
    (sort ⟨groups.flatten, n⟩).violations = groups.flatMap fun g => (sort ⟨g, n⟩).violations := by
  have ordered : groups.Pairwise fun g h =>
      ∀ v ∈ g, ∀ w ∈ h, v.location.le w.location = true := by
    refine apart.imp ?_
    intro g h before v hv w hw
    exact Location.le_of_file_lt ((Path.compare_eq_lt_iff _ _).mpr (before v hv w hw))
  have sorted := mergeSort_flatMap_of_le
    (fun u v w : Violation => Location.le_trans u.location v.location w.location)
    (fun v w => Location.le_total v.location w.location) id groups ordered
  rwa [List.flatMap_id] at sorted

/-- Sorting keeps the number of files and arranges the findings by file, line and column, those that agree
in all three as they were found. There is no other such arrangement. A second time nothing changes, what
is left out may be left out before or after, and lists whose files come strictly one after another may be
sorted one by one. -/
theorem sort_arranges (r : Report) :
    r.sort.filesChecked = r.filesChecked ∧ r.sort.violations.Perm r.violations ∧
      InOrder r.sort.violations ∧ SameTies r.sort.violations r.violations ∧
      (∀ vs, InOrder vs → SameTies vs r.violations → vs = r.sort.violations) ∧
      r.sort.sort = r.sort ∧
      (∀ p : Violation → Bool, { r with violations := r.violations.filter p }.sort =
        { r.sort with violations := r.sort.violations.filter p }) ∧
      ∀ groups : List (List Violation), r.violations = groups.flatten →
        (groups.Pairwise fun g h =>
          ∀ v ∈ g, ∀ w ∈ h, Path.Precedes v.location.file w.location.file) →
        r.sort.violations = groups.flatMap fun g => { r with violations := g }.sort.violations := by
  refine ⟨rfl, r.sort_sameTies.perm, r.sort_inOrder, r.sort_sameTies, ?only, r.sort_idempotent,
    r.sort_filter, ?groups⟩
  case only =>
    intro vs ordered ties
    exact eq_of_inOrder ordered r.sort_inOrder fun key => (ties key).trans (r.sort_sameTies key).symm
  case groups =>
    intro groups whole apart
    have whole' : r = ⟨groups.flatten, r.filesChecked⟩ := by rw [← whole]
    rw [whole']
    exact sort_flatten r.filesChecked groups apart

/-- A finding with nothing but its place and its message. -/
def placed (file : String) (line column : Nat) (message : String) : Violation :=
  ⟨"", "", .warning, .point file line column, message, none⟩

/-- Findings in two files. The path of the first comes first, although its text does not. -/
def twoFiles : List (List Violation) :=
  [[placed "a/b" 2 1 "late", placed "a/b" 1 4 "first", placed "a//b" 1 4 "second"],
    [placed "a-b/c" 1 1 "other"]]

theorem sort_arranges_two_files :
    (twoFiles.Pairwise fun g h => ∀ v ∈ g, ∀ w ∈ h, Path.Precedes v.location.file w.location.file) ∧
      (sort ⟨twoFiles.flatten, 2⟩).violations =
        [placed "a/b" 1 4 "first", placed "a//b" 1 4 "second", placed "a/b" 2 1 "late",
          placed "a-b/c" 1 1 "other"] := by
  have apart : twoFiles.Pairwise fun g h =>
      ∀ v ∈ g, ∀ w ∈ h, Path.Precedes v.location.file w.location.file := by decide +kernel
  have before : (placed "a/b" 2 1 "late").location.le (placed "a/b" 1 4 "first").location = false ∧
      (placed "a/b" 2 1 "late").location.le (placed "a//b" 1 4 "second").location = false ∧
      (placed "a/b" 1 4 "first").location.le (placed "a//b" 1 4 "second").location = true := by
    decide +kernel
  refine ⟨apart, ?_⟩
  rw [(sort_arranges ⟨twoFiles.flatten, 2⟩).2.2.2.2.2.2.2 twoFiles rfl apart]
  simp [twoFiles, sort, List.mergeSort, List.MergeSort.Internal.splitInTwo, before]

end Report

end SwitchLint
