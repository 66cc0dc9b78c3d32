import SwitchLint.Proofs.SteadyLiterals

/-!
Values are read the same whether the text ends behind the line or goes on. Arrays may be broken into
lines; one that is closed before the end of the text is read the same too.
-/

namespace SwitchLint.Toml

open Grammar Scan

/-! ### Line breaks and comments within an array -/

theorem newline_eq_ok {c c' : Cursor} : newline c = .ok ((), c') ↔
    (c.rest = '\n' :: c'.rest ∧ c'.offset = c.offset + 1) ∨
      c.rest = '\r' :: '\n' :: c'.rest ∧ c'.offset = c.offset + 2 := by
  constructor
  · intro run
    rcases orElse_eq_ok.mp run with run | ⟨-, run⟩
    · exact .inl (char_eq_ok.mp run)
    · obtain ⟨_, c₁, first, second⟩ := bind_eq_ok.mp run
      obtain ⟨first, offset⟩ := char_eq_ok.mp first
      obtain ⟨second, offset'⟩ := char_eq_ok.mp second
      exact .inr ⟨second ▸ first, offset' ▸ offset ▸ rfl⟩
  · obtain ⟨rest, offset⟩ := c
    obtain ⟨rest', offset'⟩ := c'
    rintro (⟨first, last⟩ | ⟨first, last⟩)
    · simp only at first last
      rw [first, last]
      rfl
    · simp only at first last
      rw [first, last]
      rfl

/-- What the scanner reads it also reads where more lines follow, unless it reads up to the end of the
text. -/
structure Scan.ReadsOn {α : Type} (p : Scan α) : Prop where
  suffix : Advances p
  reads : ∀ {c a c'}, p c = .ok (a, c') → c'.rest ≠ [] → ∀ more, p (c.before more) = .ok (a, c'.before more)

namespace Scan.ReadsOn

variable {α β : Type} {p : Scan α} {f : α → Scan β}

theorem of_steady (hp : Steady [] p) : ReadsOn p := ⟨hp.suffix, fun run _ => hp.reads_all run⟩

theorem bind (hp : ReadsOn p) (hf : ∀ a, ReadsOn (f a)) : ReadsOn (p >>= f) where
  suffix := hp.suffix.bind fun a => (hf a).suffix
  reads run some_text more := by
    obtain ⟨a, c', first, second⟩ := bind_eq_ok.mp run
    have some_text' : c'.rest ≠ [] := ((hf a).suffix second).ne_nil some_text
    exact bind_eq_ok.mpr ⟨a, _, hp.reads first some_text' more, (hf a).reads second some_text more⟩

theorem peek {F : Option Char → Scan β} (hF : ∀ o, ReadsOn (F o)) : ReadsOn (peek? >>= F) where
  suffix _ _ _ run := (hF _).suffix run
  reads {c b c'} run some_text more := by
    have suffix := (hF _).suffix run
    obtain ⟨_ | ⟨x, xs⟩, offset⟩ := c
    · exact absurd (List.suffix_nil.mp suffix) some_text
    · exact (hF (some x)).reads run some_text more

theorem bounded {F : Nat → Scan β} (hF : ∀ n, ReadsOn (F n))
    (enough : ∀ {k n m}, k < n → k < m → AgreeWithin k (F n) (F m)) : ReadsOn (bound >>= F) where
  suffix _ _ _ run := (hF _).suffix run
  reads {c b c'} run some_text more := by
    have own : (bound >>= F) c = F ((c.before more).rest.length + 1) c := bounded_run enough c more
    rw [own] at run
    exact (hF _).reads run some_text more

end Scan.ReadsOn

theorem newline_before {c c' : Cursor} (run : newline c = .ok ((), c')) (more : List Char) :
    newline (c.before more) = .ok ((), c'.before more) := by
  rcases newline_eq_ok.mp run with ⟨first, offset⟩ | ⟨first, offset⟩
  · exact newline_eq_ok.mpr (.inl ⟨by simp [Cursor.before, first], offset⟩)
  · exact newline_eq_ok.mpr (.inr ⟨by simp [Cursor.before, first], offset⟩)

theorem readsOn_newline : ReadsOn newline where
  suffix _ _ _ run := by
    rcases newline_eq_ok.mp run with ⟨first, -⟩ | ⟨first, -⟩
    · exact ⟨['\n'], first.symm⟩
    · exact ⟨['\r', '\n'], first.symm⟩
  reads run _ more := newline_before run more

theorem steady_comment : Steady [] comment :=
  (Steady.char (by decide)).bind fun _ => (Steady.takeWhile (by decide)).map _

theorem shrinks_comment : Shrinks comment :=
  (shrinks_char _).bind fun _ => (advances_takeWhile _).map _

theorem readsOn_blankLines (n : Nat) : ReadsOn (blankLines n) := by
  induction n with
  | zero => exact .of_steady (.pure ())
  | succ n ih =>
    have line : ReadsOn (newline >>= fun _ => blankLines n) := readsOn_newline.bind fun _ => ih
    apply (ReadsOn.of_steady steady_blanks).bind
    intro
    apply ReadsOn.peek
    intro o
    split
    · exact (ReadsOn.of_steady steady_comment).bind fun _ => line
    · exact line
    · exact line
    · exact .of_steady (.pure ())

theorem blankLines_enough {k n m : Nat} (hn : k < n) (hm : k < m) :
    AgreeWithin k (blankLines n) (blankLines m) := by
  induction n generalizing m k with
  | zero => omega
  | succ n ih =>
    cases m with
    | zero => omega
    | succ m =>
      have line {j : Nat} (short : j ≤ k) :
          AgreeWithin j (newline >>= fun _ => blankLines n) (newline >>= fun _ => blankLines m) := by
        apply AgreeWithin.bind_shrinks shrinks_newline
        intro i shorter _
        exact ih (by omega) (by omega)
      apply AgreeWithin.bind steady_blanks.suffix
      intro
      apply AgreeWithin.peek
      intro o
      split
      · exact AgreeWithin.bind steady_comment.suffix fun _ => line (Nat.le_refl k)
      · exact line (Nat.le_refl k)
      · exact line (Nat.le_refl k)
      · exact .rfl

theorem readsOn_blankLinesHere : ReadsOn (bound >>= blankLines) :=
  .bounded readsOn_blankLines blankLines_enough

/-! ### Arrays -/

/-- A value with blanks, line breaks and comments around it. -/
def spaced (value : Scan Item) : Scan Item := do
  blankLines (← bound)
  let item ← value
  blankLines (← bound)
  return item

/-- What stands behind the bracket that opens an array. -/
def arrayBody (value : Scan Item) : Scan (List Item) := do
  if (← peek?) == some ']' then return []
  let items := (← attempt (separated (spaced value) (char ','))).getD []
  let _ ← attempt (char ',')
  blankLines (← bound)
  return items

theorem array_eq (value : Scan Item) : Grammar.array value = (do
    char '['
    let items ← cut (arrayBody value)
    cut (wants [.spelled "]"] (label "array" (char ']')))
    return items) := rfl

theorem steady_comma : Steady [] (char ',') := .char (by decide)

/-- A bracket closes the array here, be it behind a comma. -/
def Closed (c : Cursor) : Prop := ∃ o c₁ c₂, attempt (char ',') c = .ok (o, c₁) ∧
  (bound >>= blankLines) c₁ = .ok ((), c₂) ∧ c₂.rest.head? = some ']'

theorem ne_nil_of_head {cs : List Char} {x : Char} (first : cs.head? = some x) : cs ≠ [] := by
  rintro rfl
  cases first

theorem Closed.ne_nil {c : Cursor} (closed : Closed c) : c.rest ≠ [] := by
  obtain ⟨o, c₁, c₂, comma, gap, last⟩ := closed
  have suffix := (readsOn_blankLinesHere.suffix gap).trans (steady_comma.attempt.suffix comma)
  exact suffix.ne_nil (ne_nil_of_head last)

/-- A scanner that reads values, and none where an element of an array ends. -/
structure ReadsValues (value : Scan Item) : Prop where
  steady : Steady [] value
  stops : ∀ {c}, (∀ x ∈ c.rest.head?, x = ',' ∨ x = ']') → Soft (value c)

section

variable {value : Scan Item} (hv : ReadsValues value) {c c' : Cursor}
include hv

theorem readsOn_spaced : ReadsOn (spaced value) := by
  have gap : ReadsOn (bound >>= blankLines) := readsOn_blankLinesHere
  rw [spaced, ← bind_assoc]
  apply gap.bind
  intro
  apply (ReadsOn.of_steady hv.steady).bind
  intro item
  rw [← bind_assoc]
  exact gap.bind fun _ => .of_steady (.pure item)

theorem soft_spaced (gap : (bound >>= blankLines) c = .ok ((), c'))
    (stop : c'.rest.head? = some ',' ∨ c'.rest.head? = some ']') (more : List Char) :
    Soft (spaced value (c.before more)) := by
  have some_text : c'.rest ≠ [] := stop.elim ne_nil_of_head ne_nil_of_head
  rw [spaced, ← bind_assoc, bind_of_ok (readsOn_blankLinesHere.reads gap some_text more)]
  apply bind_of_soft
  apply hv.stops
  intro x first
  rw [Cursor.before, List.head?_append_of_ne_nil _ some_text] at first
  rcases stop with stop | stop
  · exact .inl (Option.some.inj (first.symm.trans stop))
  · exact .inr (Option.some.inj (first.symm.trans stop))

theorem many_spaced {n : Nat} {items : List Item}
    (run : many (char ',' >>= fun _ => spaced value) n c = .ok (items, c')) (closed : Closed c') :
    c'.rest <:+ c.rest ∧ ∀ more, many (char ',' >>= fun _ => spaced value) n (c.before more) =
      .ok (items, c'.before more) := by
  induction n generalizing c items with
  | zero =>
    cases run
    exact ⟨List.suffix_rfl, fun _ => rfl⟩
  | succ n ih =>
    have further : ReadsOn (char ',' >>= fun _ => spaced value) :=
      (ReadsOn.of_steady steady_comma).bind fun _ => readsOn_spaced hv
    obtain ⟨o, c₁, first, rest⟩ := bind_eq_ok.mp run
    cases o with
    | none =>
      cases rest
      obtain ⟨⟨e, failed, soft⟩, rfl⟩ := attempt_eq_none.mp first
      refine ⟨List.suffix_rfl, fun more => ?_⟩
      have stopped : Soft ((char ',' >>= fun _ => spaced value) (c'.before more)) := by
        rcases bind_eq_error.mp failed with failed | ⟨_, c₂, comma, -⟩
        · exact bind_of_soft (steady_comma.fails_all failed soft more)
        · obtain ⟨o, c₃, c₄, comma', gap, last⟩ := closed
          cases (attempt_eq_some.mpr comma).symm.trans comma'
          rw [bind_of_ok (steady_comma.reads_all comma more)]
          exact soft_spaced hv gap (.inr last) more
      exact bind_eq_ok.mpr ⟨none, _, attempt_eq_none.mpr ⟨stopped, rfl⟩, rfl⟩
    | some item =>
      obtain ⟨items, c₂, others, last⟩ := bind_eq_ok.mp rest
      cases last
      have own := attempt_eq_some.mp first
      obtain ⟨suffix, all⟩ := ih others
      refine ⟨suffix.trans (further.suffix own), fun more => ?_⟩
      have some_text : c₁.rest ≠ [] := suffix.ne_nil closed.ne_nil
      have own' := attempt_eq_some.mpr (further.reads own some_text more)
      exact bind_eq_ok.mpr ⟨some item, _, own', bind_eq_ok.mpr ⟨items, _, all more, rfl⟩⟩

theorem separated_spaced {o : Option (List Item)}
    (run : attempt (separated (spaced value) (char ',')) c = .ok (o, c')) (closed : Closed c') :
    c'.rest <:+ c.rest ∧ ∀ more, attempt (separated (spaced value) (char ',')) (c.before more) =
      .ok (o, c'.before more) := by
  cases o with
  | none =>
    obtain ⟨-, rfl⟩ := attempt_eq_none.mp run
    refine ⟨List.suffix_rfl, fun more => attempt_eq_none.mpr ⟨bind_of_soft ?_, rfl⟩⟩
    obtain ⟨o, c₁, c₂, comma, gap, last⟩ := closed
    cases o with
    | none =>
      obtain ⟨-, rfl⟩ := attempt_eq_none.mp comma
      exact soft_spaced hv gap (.inr last) more
    | some u =>
      obtain ⟨first, -⟩ := char_eq_ok.mp (attempt_eq_some.mp comma)
      have here : (bound >>= blankLines) c' = .ok ((), c') := by
        obtain ⟨rest, offset⟩ := c'
        simp only at first
        rw [first]
        rfl
      exact soft_spaced hv here (.inl (by rw [first]; rfl)) more
  | some items =>
    obtain ⟨item, c₁, first, rest⟩ := bind_eq_ok.mp (attempt_eq_some.mp run)
    rw [← bind_assoc] at rest
    obtain ⟨items, c₂, others, last⟩ := bind_eq_ok.mp rest
    cases last
    have shrinks : Shrinks (char ',' >>= fun _ => spaced value) :=
      (shrinks_char ',').bind fun _ => (readsOn_spaced hv).suffix
    have enough := bounded_run (many_enough shrinks) c₁
    have suffix := (many_spaced hv others closed).1
    refine ⟨suffix.trans ((readsOn_spaced hv).suffix first), fun more => attempt_eq_some.mpr ?_⟩
    have some_text : c₁.rest ≠ [] := suffix.ne_nil closed.ne_nil
    rw [enough more] at others
    have others' := (many_spaced hv others closed).2 more
    refine bind_eq_ok.mpr ⟨item, _, (readsOn_spaced hv).reads first some_text more, ?_⟩
    exact bind_eq_ok.mpr ⟨_, _, rfl, bind_eq_ok.mpr ⟨items, _, others', rfl⟩⟩

theorem arrayBody_before {items : List Item} (run : arrayBody value c = .ok (items, c'))
    (last : c'.rest.head? = some ']') : c'.rest <:+ c.rest ∧
      ∀ more, arrayBody value (c.before more) = .ok (items, c'.before more) := by
  obtain ⟨o, c₁, next, rest⟩ := bind_eq_ok.mp run
  obtain ⟨rfl, rfl⟩ := peek_eq_ok.mp next
  have next_before (some_text : c₁.rest ≠ []) (more : List Char) :
      peek? (c₁.before more) = .ok (c₁.rest.head?, c₁.before more) :=
    peek_eq_ok.mpr ⟨(List.head?_append_of_ne_nil _ some_text).symm, rfl⟩
  split at rest
  · rename_i bracket
    cases rest
    refine ⟨List.suffix_rfl, fun more => bind_eq_ok.mpr ⟨_, _, next_before (ne_nil_of_head last) more, ?_⟩⟩
    rw [if_pos bracket]
    rfl
  · rename_i other
    obtain ⟨o, c₂, elements, rest⟩ := bind_eq_ok.mp rest
    obtain ⟨o', c₃, comma, rest⟩ := bind_eq_ok.mp rest
    rw [← bind_assoc] at rest
    obtain ⟨_, c₄, gap, rest⟩ := bind_eq_ok.mp rest
    cases rest
    obtain ⟨suffix, all⟩ := separated_spaced hv elements ⟨o', c₃, _, comma, gap, last⟩
    have ending := (readsOn_blankLinesHere.suffix gap).trans (steady_comma.attempt.suffix comma)
    have suffix' := ending.trans suffix
    have some_text : c₁.rest ≠ [] := suffix'.ne_nil (ne_nil_of_head last)
    refine ⟨suffix', fun more => bind_eq_ok.mpr ⟨_, _, next_before some_text more, ?_⟩⟩
    rw [if_neg other]
    refine bind_eq_ok.mpr ⟨o, _, all more, ?_⟩
    refine bind_eq_ok.mpr ⟨o', _, steady_comma.attempt.reads_all comma more, ?_⟩
    rw [← bind_assoc]
    exact bind_eq_ok.mpr ⟨(), _, readsOn_blankLinesHere.reads gap (ne_nil_of_head last) more, rfl⟩

theorem steady_array : Steady [] (Grammar.array value) := by
  rw [array_eq]
  let close : Scan Unit := cut (wants [.spelled "]"] (label "array" (char ']')))
  have closing : Steady [] close := (((Steady.char (by decide)).label _).wants _).cut
  have parts {c c' : Cursor} {items : List Item}
      (run : (cut (arrayBody value) >>= fun items => close >>= fun _ => pure items) c = .ok (items, c')) :
      ∃ c₁, arrayBody value c = .ok (items, c₁) ∧ close c₁ = .ok ((), c') ∧ c₁.rest.head? = some ']' := by
    obtain ⟨items, c₁, body, rest⟩ := bind_eq_ok.mp run
    obtain ⟨_, c₂, closed, last⟩ := bind_eq_ok.mp rest
    cases last
    have bracket := (char_eq_ok.mp (label_eq_ok.mp (wants_eq_ok.mp (cut_eq_ok.mp closed)))).1
    exact ⟨c₁, cut_eq_ok.mp body, closed, by rw [bracket]; rfl⟩
  apply (Steady.char (by decide)).bind
  intro
  apply Closes.steady
  constructor
  · apply (firm_cut _).bind
    intro items
    exact (firm_cut _).map _
  · intro c items c' run
    obtain ⟨c₁, body, closed, last⟩ := parts run
    exact (closing.suffix closed).trans (arrayBody_before hv body last).1
  · intro c items c' run
    obtain ⟨c₁, body, closed, last⟩ := parts run
    refine ⟨not_lacks_nil _, fun more => ?_⟩
    have body' := cut_eq_ok.mpr ((arrayBody_before hv body last).2 more)
    exact bind_eq_ok.mpr ⟨items, _, body', bind_eq_ok.mpr ⟨(), _, closing.reads_all closed more, rfl⟩⟩

/-! ### Values -/

theorem steady_inlineEntries : Steady [] (inlineEntries value) := by
  apply (Steady.char (by decide)).bind
  intro
  apply Steady.bind
  · apply Steady.cut
    apply Steady.checked
    apply Steady.bind
    · apply Steady.attempt
      refine Steady.separated ?_ steady_comma (shrinks_char ',')
      apply steady_key.bind
      intro keys
      apply Steady.cut
      apply ((Steady.char (by decide)).wants _).bind
      intro
      apply steady_blanks.bind
      intro
      apply hv.steady.bind
      intro item
      exact steady_blanks.map _
    · intro found
      exact steady_blanks.bind fun _ => .pure _
  · intro entries
    exact (((Steady.char (by decide)).label _).wants _).cut.map _

end

theorem steady_numeric : Steady [] numeric :=
  (steady_dateTime.map _).orElse <|
    (steady_float.map _).orElse (steady_integer.map _)

theorem steady_likeString {α : Type} {p : Scan α} (hp : Steady [] p) : Steady [] (likeString p) :=
  (hp.label _).wants _

theorem readsValues_valueWith {inner : Option (Scan Item)} (hinner : ∀ value ∈ inner, ReadsValues value) :
    ReadsValues (valueWith inner) where
  steady := by
    have infinite : Steady [] infinity := (Steady.text (by decide)).map _
    have nan : Steady [] notANumber := (Steady.text (by decide)).map _
    have tooDeep : Steady [] (here >>= fun offset => (refuse .tooDeep offset : Scan (Extent → Item))) :=
      Steady.here.bind fun _ => .refuse _ _
    apply Steady.bind
    · apply Steady.located
      apply Steady.peek_soft
      · intro x
        split
        · exact .fail
        · exact steady_string.map _
        · exact steady_string.map _
        · cases inner with
          | none => exact tooDeep
          | some value => exact (steady_array (hinner value rfl)).map _
        · cases inner with
          | none => exact tooDeep
          | some value => exact (steady_inlineEntries (hinner value rfl)).map _
        · exact (steady_integer.map _).wants _
        · exact (steady_float.map _).wants _
        · exact steady_likeString ((Steady.text (by decide)).map _).cut
        · exact steady_likeString ((Steady.text (by decide)).map _).cut
        · exact steady_likeString (infinite.map _)
        · exact steady_likeString (nan.map _)
        · split
          · exact steady_numeric
          · exact steady_likeString .fail
      · intro c
        exact ⟨_, rfl, rfl⟩
      · intro c
        exact ⟨_, rfl, rfl⟩
    · intro made
      exact .pure _
  stops := by
    intro c stop
    obtain ⟨_ | ⟨x, xs⟩, offset⟩ := c
    · exact ⟨_, rfl, rfl⟩
    · rcases stop x rfl with rfl | rfl
      · exact ⟨_, rfl, rfl⟩
      · exact ⟨_, rfl, rfl⟩

theorem readsValues_value (n : Nat) : ReadsValues (value n) := by
  induction n with
  | zero => exact readsValues_valueWith nofun
  | succ n ih =>
    apply readsValues_valueWith
    rintro value ⟨⟩
    exact ih

end SwitchLint.Toml
