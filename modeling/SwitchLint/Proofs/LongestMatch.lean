import SwitchLint.Proofs.LineFeeds

/-!
The longest match of a pattern. Among the beginnings of a text that the pattern matches it is the one
that goes furthest, so what stands behind it plays no part unless the pattern could go on there.
-/

namespace SwitchLint.Text.Pattern

variable {r a b : Pattern} {c : Char} {x y u v : List Char} {n : Nat}

/-! ### What a pattern matches -/

theorem accepts_cons (r : Pattern) (c : Char) (cs : List Char) :
    r.accepts (c :: cs) = (r.step c).accepts cs := rfl

theorem never_accepts (cs : List Char) : never.accepts cs = false := by
  induction cs with
  | nil => rfl
  | cons c cs ih => exact ih

theorem empty_accepts (cs : List Char) : empty.accepts cs = true ↔ cs = [] := by
  cases cs with
  | nil => exact iff_of_true rfl rfl
  | cons c cs => simp [accepts_cons, step, never_accepts]

theorem accepts_orElse (either : (alt a b).accepts x = (a.accepts x || b.accepts x)) :
    (a.orElse b).accepts x = (a.accepts x || b.accepts x) := by
  unfold orElse
  split
  · rw [never_accepts, Bool.false_or]
  · rw [never_accepts, Bool.or_false]
  · exact either

theorem accepts_alt (a b : Pattern) (cs : List Char) :
    (alt a b).accepts cs = (a.accepts cs || b.accepts cs) := by
  induction cs generalizing a b with
  | nil => rfl
  | cons c cs ih => exact accepts_orElse (ih (a.step c) (b.step c))

/-- The text falls into a part for each of the two patterns. -/
def Splits (a b : Pattern) (cs : List Char) : Prop :=
  ∃ u v, cs = u ++ v ∧ a.accepts u = true ∧ b.accepts v = true

theorem accepts_andThen (split : (seq a b).accepts x = true ↔ Splits a b x) :
    (a.andThen b).accepts x = true ↔ Splits a b x := by
  unfold andThen
  split
  · simp [Splits, never_accepts]
  · simp [Splits, empty_accepts]
  · exact split

theorem splits_cons (a b : Pattern) (c : Char) (cs : List Char) : Splits a b (c :: cs) ↔
    Splits (a.step c) b cs ∨ (a.nullable = true ∧ (b.step c).accepts cs = true) := by
  constructor
  · rintro ⟨u, v, whole, first, second⟩
    cases u with
    | nil =>
      obtain rfl : c :: cs = v := whole
      exact .inr ⟨first, second⟩
    | cons d u =>
      obtain ⟨rfl, rfl⟩ := List.cons.inj whole
      exact .inl ⟨u, v, rfl, first, second⟩
  · rintro (⟨u, v, rfl, first, second⟩ | ⟨first, second⟩)
    · exact ⟨c :: u, v, rfl, first, second⟩
    · exact ⟨[], c :: cs, rfl, first, second⟩

theorem accepts_seq (a b : Pattern) (cs : List Char) :
    (seq a b).accepts cs = true ↔ Splits a b cs := by
  induction cs generalizing a with
  | nil =>
    have both : (seq a b).accepts [] = (a.nullable && b.nullable) := rfl
    rw [both, Bool.and_eq_true]
    constructor
    · rintro ⟨first, second⟩
      exact ⟨[], [], rfl, first, second⟩
    · rintro ⟨u, v, whole, first, second⟩
      obtain ⟨rfl, rfl⟩ := List.append_eq_nil_iff.mp whole.symm
      exact ⟨first, second⟩
  | cons c cs ih =>
    have behind := accepts_andThen (ih (a.step c))
    rw [accepts_cons, step, splits_cons]
    split
    · rename_i skipped
      rw [accepts_orElse (accepts_alt _ _ _), Bool.or_eq_true, behind, and_iff_right skipped]
    · rename_i kept
      rw [behind, or_iff_left fun skipped => kept skipped.1]

theorem one_accepts {p : Char → Bool} : (one p).accepts x = true ↔ ∃ c, x = [c] ∧ p c = true := by
  cases x with
  | nil => simp [accepts, nullable]
  | cons c cs =>
    rw [accepts_cons, step]
    split
    · simp [empty_accepts, *]
    · rename_i other
      rw [never_accepts]
      constructor
      · intro wrong
        cases wrong
      · rintro ⟨d, same, found⟩
        obtain ⟨rfl, -⟩ := List.cons.inj same
        exact absurd found other

theorem not_mem_of_accepts (avoids : r.avoids c = true) (matched : r.accepts x = true) : c ∉ x := by
  induction x generalizing r with
  | nil => exact List.not_mem_nil
  | cons d x ih =>
    intro member
    rcases List.mem_cons.mp member with rfl | later
    · rw [accepts_cons, step_of_avoids avoids, never_accepts] at matched
      cases matched
    · exact ih (avoids_step d avoids) matched later

/-! ### The longest match -/

/-- The first `n` characters are the longest beginning of the text that the pattern matches. -/
structure Longest (r : Pattern) (cs : List Char) (n : Nat) : Prop where
  bounded : n ≤ cs.length
  matched : r.accepts (cs.take n) = true
  longest : ∀ m, m ≤ cs.length → r.accepts (cs.take m) = true → m ≤ n

theorem Longest.unique {m n : Nat} (one : Longest r x m) (other : Longest r x n) : m = n :=
  Nat.le_antisymm (other.longest m one.bounded one.matched) (one.longest n other.bounded other.matched)

theorem Longest.cons {cs : List Char} (longest : Longest (r.step c) cs n) :
    Longest r (c :: cs) (n + 1) where
  bounded := Nat.succ_le_succ longest.bounded
  matched := longest.matched
  longest := by
    rintro (_ | m) bounded matched
    · exact Nat.zero_le _
    · exact Nat.succ_le_succ (longest.longest m (Nat.le_of_succ_le_succ bounded) matched)

theorem longestFrom_spec (r : Pattern) (taken : Nat) (best : Option Nat) (cs : List Char) :
    (∃ n, Longest r cs n ∧ r.longestFrom taken best cs = some (taken + n)) ∨
      ((∀ m, m ≤ cs.length → r.accepts (cs.take m) = false) ∧ r.longestFrom taken best cs = best) := by
  -- Where nothing longer matches, the empty text decides.
  have here {r : Pattern} {taken : Nat} {best : Option Nat} {cs : List Char}
      (nothing : ∀ m, 0 < m → m ≤ cs.length → r.accepts (cs.take m) = false) :
      (∃ n, Longest r cs n ∧ (if r.nullable then some taken else best) = some (taken + n)) ∨
      ((∀ m, m ≤ cs.length → r.accepts (cs.take m) = false) ∧
        (if r.nullable then some taken else best) = best) := by
    by_cases skipped : r.nullable = true
    · refine .inl ⟨0, ⟨Nat.zero_le _, skipped, fun m bounded matched => ?_⟩, if_pos skipped⟩
      refine Nat.le_of_not_lt fun positive => ?_
      rw [nothing m positive bounded] at matched
      cases matched
    · refine .inr ⟨fun m bounded => ?_, if_neg skipped⟩
      cases m with
      | zero => exact Bool.eq_false_of_not_eq_true skipped
      | succ m => exact nothing _ (Nat.succ_pos m) bounded
  induction cs generalizing r taken best with
  | nil => exact here fun m positive bounded => absurd positive (Nat.not_lt.mpr bounded)
  | cons c cs ih =>
    unfold longestFrom
    dsimp only
    split
    · rename_i dead
      have gone : r.step c = never := by
        cases same : r.step c <;> simp [same, isNever] at dead ⊢
      refine here fun m positive _ => ?_
      obtain ⟨m, rfl⟩ := Nat.exists_eq_succ_of_ne_zero (Nat.ne_of_gt positive)
      rw [List.take_succ_cons, accepts_cons, gone, never_accepts]
    · rcases ih (r.step c) (taken + 1) (if r.nullable then some taken else best) with
        ⟨n, longest, value⟩ | ⟨nothing, value⟩
      · refine .inl ⟨n + 1, longest.cons, ?_⟩
        rw [value, Nat.add_right_comm, Nat.add_assoc]
      · rw [value]
        refine here fun m positive bounded => ?_
        obtain ⟨m, rfl⟩ := Nat.exists_eq_succ_of_ne_zero (Nat.ne_of_gt positive)
        exact nothing m (Nat.le_of_succ_le_succ bounded)

theorem longest_eq_some : r.longest x = some n ↔ Longest r x n := by
  unfold Pattern.longest
  rcases longestFrom_spec r 0 none x with ⟨m, longest, value⟩ | ⟨nothing, value⟩
  · rw [value, Option.some.injEq, Nat.zero_add]
    exact ⟨fun same => same ▸ longest, longest.unique⟩
  · rw [value]
    refine iff_of_false nofun fun longest => ?_
    have matched := longest.matched
    rw [nothing n longest.bounded] at matched
    cases matched

theorem longest_eq_none : r.longest x = none ↔ ∀ m, m ≤ x.length → r.accepts (x.take m) = false := by
  unfold Pattern.longest
  rcases longestFrom_spec r 0 none x with ⟨m, longest, value⟩ | ⟨nothing, value⟩
  · rw [value]
    refine iff_of_false nofun fun nothing => ?_
    have matched := longest.matched
    rw [nothing m longest.bounded] at matched
    cases matched
  · exact iff_of_true value nothing

/-! ### What stands behind a match -/

/-- A match that ends in the first part of a text is the longest one of that part. -/
theorem longest_of_append (ends : ∀ n, r.longest (x ++ y) = some n → n ≤ x.length) :
    r.longest x = r.longest (x ++ y) := by
  have within {m : Nat} (bounded : m ≤ x.length) : (x ++ y).take m = x.take m :=
    List.take_append_of_le_length bounded
  have longer : x.length ≤ (x ++ y).length := by simp
  cases whole : r.longest (x ++ y) with
  | none =>
    rw [longest_eq_none] at whole ⊢
    intro m bounded
    rw [← within bounded]
    exact whole m (bounded.trans longer)
  | some n =>
    have bounded := ends n whole
    rw [longest_eq_some] at whole ⊢
    refine ⟨bounded, within bounded ▸ whole.matched, fun m inside matched => ?_⟩
    exact whole.longest m (inside.trans longer) (by rwa [within inside])

/-- A text that the pattern matches is the beginning of its longest match. -/
theorem length_le_longest (matched : r.longest x = some x.length) :
    ∃ n, r.longest (x ++ y) = some n ∧ x.length ≤ n := by
  have whole := (longest_eq_some.mp matched).matched
  rw [List.take_length] at whole
  have bounded : x.length ≤ (x ++ y).length := by simp
  cases found : r.longest (x ++ y) with
  | none =>
    have nothing := longest_eq_none.mp found x.length bounded
    rw [List.take_left, whole] at nothing
    cases nothing
  | some n =>
    refine ⟨n, rfl, (longest_eq_some.mp found).longest _ bounded ?_⟩
    rwa [List.take_left]

theorem longest_append_of_avoids (avoids : r.avoids c = true) (x y : List Char) :
    r.longest (x ++ c :: y) = r.longest x := by
  refine (longest_of_append fun n found => Nat.le_of_not_lt fun beyond => ?_).symm
  refine not_mem_of_longest avoids found ?_
  rw [List.take_append]
  obtain ⟨k, more⟩ := Nat.exists_eq_add_of_lt beyond
  simp [show n - x.length = k + 1 by omega]

/-- A match goes no further than to a character that only its first one can be. -/
theorem longest_append_of_stop {stop : Char} (inner : ∀ c, (r.step c).avoids stop = true)
    (found : r.longest x = some n) (positive : 0 < n) (later : stop ∈ x.drop n) :
    r.longest (x ++ y) = some n := by
  have longest := longest_eq_some.mp found
  refine longest_eq_some.mpr ⟨?_, ?_, fun m bounded matched => ?_⟩
  · exact longest.bounded.trans (by simp)
  · rw [List.take_append_of_le_length longest.bounded]
    exact longest.matched
  · refine Nat.le_of_not_lt fun more => ?_
    rcases Nat.lt_or_ge x.length m with beyond | inside
    · -- The stop would be an inner character of the match.
      cases x with
      | nil => simp at later
      | cons d x =>
        obtain ⟨k, rfl⟩ := Nat.exists_eq_add_of_lt positive
        rw [List.take_append, List.take_of_length_le beyond.le, List.cons_append, accepts_cons]
          at matched
        refine not_mem_of_accepts (inner d) matched (List.mem_append_left _ ?_)
        rw [Nat.zero_add, List.drop_succ_cons] at later
        exact List.mem_of_mem_drop later
    · rw [List.take_append_of_le_length inside] at matched
      exact absurd (longest.longest m inside matched) (Nat.not_le.mpr more)

/-! ### Patterns whose matches end by themselves -/

/-- No match of the pattern is the beginning of another one. -/
def Closed (r : Pattern) : Prop :=
  ∀ u v, r.accepts u = true → r.accepts (u ++ v) = true → v = []

/-- No match of one pattern begins with the same character as one of the other. -/
def Apart (a b : Pattern) : Prop := ∀ c, a.step c = never ∨ b.step c = never

theorem closed_never : Closed never := by
  intro u v matched
  rw [never_accepts] at matched
  cases matched

theorem closed_empty : Closed empty := by
  intro u v _ further
  exact (List.append_eq_nil_iff.mp ((empty_accepts _).mp further)).2

theorem closed_one {p : Char → Bool} : Closed (one p) := by
  intro u v matched further
  obtain ⟨c, rfl, -⟩ := one_accepts.mp matched
  obtain ⟨d, same, -⟩ := one_accepts.mp further
  exact (List.cons.inj same).2

theorem Closed.seq (first : Closed a) (second : Closed b) : Closed (seq a b) := by
  intro u v matched further
  obtain ⟨s, t, rfl, hs, ht⟩ := (accepts_seq a b u).mp matched
  obtain ⟨s', t', whole, hs', ht'⟩ := (accepts_seq a b _).mp further
  -- The two first parts begin one text, so they are the same.
  have parts : s = s' := by
    rw [List.append_assoc] at whole
    rcases List.append_eq_append_iff.mp whole with ⟨more, rfl, -⟩ | ⟨more, rfl, -⟩
    · rw [first s more hs hs', List.append_nil]
    · rw [first s' more hs' hs, List.append_nil]
  subst parts
  rw [List.append_assoc] at whole
  obtain rfl := List.append_cancel_left whole
  exact second t v ht ht'

theorem Closed.alt (left : Closed a) (right : Closed b) (apart : Apart a b)
    (filled : a.nullable = false) (filled' : b.nullable = false) : Closed (alt a b) := by
  intro u v matched further
  rw [accepts_alt, Bool.or_eq_true] at matched further
  cases u with
  | nil => simp [accepts, filled, filled'] at matched
  | cons c u =>
    simp only [List.cons_append, accepts_cons] at matched further
    rcases apart c with gone | gone
    · simp only [gone, never_accepts, Bool.false_eq_true, false_or] at matched further
      exact right (c :: u) v matched further
    · simp only [gone, never_accepts, Bool.false_eq_true, or_false] at matched further
      exact left (c :: u) v matched further

theorem closed_chain {rs : List Pattern} (all : ∀ r ∈ rs, Closed r) : Closed (chain rs) := by
  induction rs with
  | nil => exact closed_empty
  | cons r rs ih =>
    obtain ⟨first, later⟩ := List.forall_mem_cons.mp all
    exact first.seq (ih later)

theorem closed_times (n : Nat) (closed : Closed a) : Closed (times n a) :=
  closed_chain fun _ hr => (List.eq_of_mem_replicate hr) ▸ closed

theorem closed_exactly (s : String) : Closed (exactly s) := by
  unfold exactly
  induction s.toList with
  | nil => exact closed_empty
  | cons c cs ih => exact closed_one.seq ih

theorem closed_anyOf {rs : List Pattern} (all : ∀ r ∈ rs, Closed r ∧ r.nullable = false)
    (apart : rs.Pairwise Apart) : Closed (anyOf rs) ∧ (anyOf rs).nullable = false := by
  induction rs with
  | nil => exact ⟨closed_never, rfl⟩
  | cons r rs ih =>
    obtain ⟨⟨closed, filled⟩, later⟩ := List.forall_mem_cons.mp all
    obtain ⟨apart, apartLater⟩ := List.pairwise_cons.mp apart
    obtain ⟨closedLater, filledLater⟩ := ih later apartLater
    have apartAll : Apart r (anyOf rs) := by
      intro c
      refine or_iff_not_imp_left.mpr fun begins => ?_
      have gone : ∀ s ∈ rs, s.step c = never := fun s hs => (apart s hs c).resolve_left begins
      clear * - gone
      induction rs with
      | nil => rfl
      | cons s rs ih =>
        obtain ⟨first, later⟩ := List.forall_mem_cons.mp gone
        have rest : (anyOf rs).step c = never := ih later
        simp only [anyOf, List.foldr_cons, step, first, orElse] at rest ⊢
        exact rest
    refine ⟨closed.alt closedLater apartAll filled filledLater, ?_⟩
    exact Bool.or_eq_false_iff.mpr ⟨filled, filledLater⟩

/-- Every match of the pattern that is not empty begins with one of the characters. -/
def Begins (r : Pattern) (heads : List Char) : Prop := ∀ c, c ∉ heads → r.step c = never

theorem begins_one {p : Char → Bool} {heads : List Char} (only : ∀ c, p c = true → c ∈ heads) :
    Begins (one p) heads := by
  intro c other
  rw [step, if_neg fun found => other (only c found)]

theorem begins_seq {heads : List Char} (begins : Begins a heads) (filled : a.nullable = false) :
    Begins (seq a b) heads := by
  intro c other
  rw [step, filled, begins c other]
  rfl

theorem apart_of_begins {heads heads' : List Char} (left : Begins a heads) (right : Begins b heads')
    (disjoint : heads.Disjoint heads') : Apart a b := by
  intro c
  by_cases member : c ∈ heads
  · exact .inr (right c fun member' => disjoint member member')
  · exact .inl (left c member)

theorem longest_append_of_closed (closed : Closed r) (found : r.longest x = some n) (y : List Char) :
    r.longest (x ++ y) = some n := by
  have longest := longest_eq_some.mp found
  have within : (x ++ y).take n = x.take n := List.take_append_of_le_length longest.bounded
  refine longest_eq_some.mpr ⟨?_, within ▸ longest.matched, fun m bounded matched => ?_⟩
  · exact longest.bounded.trans (by simp)
  · refine Nat.le_of_not_lt fun more => ?_
    obtain ⟨k, rfl⟩ := Nat.exists_eq_add_of_lt more
    have longer : (x ++ y).take (n + k + 1) = x.take n ++ ((x ++ y).drop n).take (k + 1) := by
      rw [Nat.add_assoc, List.take_add, within]
    rw [longer] at matched
    have none := congrArg List.length (closed _ _ longest.matched matched)
    simp only [List.length_take, List.length_drop, List.length_nil] at none
    omega

end SwitchLint.Text.Pattern
