import SwitchLint.Proofs.SteadyValues

/-!
Lines behind the end of a document. What a text comes to that is a document by itself does not change
where a line break and further lines follow: these are read from the draft that the text comes to.
-/

namespace SwitchLint.Toml

open Grammar Scan

/-! ### Scanners that end a line -/

/-- The scanner goes to the end of a line, over the line break. At the end of the text there is none; where
more lines follow, it goes over the break before them. -/
structure Scan.EndsLine {α : Type} (p : Scan α) : Prop where
  suffix : Advances p
  reads : ∀ {c a c'}, p c = .ok (a, c') → ∀ more, p (c.before more) = .ok (a, c'.before more) ∨
    c'.rest = [] ∧ ∃ offset, p (c.before more) = .ok (a, ⟨more, offset⟩)

namespace Scan.EndsLine

variable {α β : Type} {p : Scan α}

theorem behind {f : α → Scan β} (hp : Steady [] p) (hf : ∀ a, EndsLine (f a)) : EndsLine (p >>= f) where
  suffix := hp.suffix.bind fun a => (hf a).suffix
  reads run more := by
    obtain ⟨a, c₁, first, second⟩ := bind_eq_ok.mp run
    rw [bind_of_ok (hp.reads_all first more)]
    exact (hf a).reads second more

/-- What is done with what was read takes no more of the text. -/
theorem before {g : α → Scan β} (hp : EndsLine p)
    (still : ∀ {a b c c'}, g a c = .ok (b, c') → c' = c ∧ ∀ c₁, g a c₁ = .ok (b, c₁)) :
    EndsLine (p >>= g) where
  suffix _ _ _ run := by
    obtain ⟨a, c₁, first, second⟩ := bind_eq_ok.mp run
    obtain ⟨rfl, -⟩ := still second
    exact hp.suffix first
  reads run more := by
    obtain ⟨a, c₁, first, second⟩ := bind_eq_ok.mp run
    obtain ⟨rfl, all⟩ := still second
    rcases hp.reads first more with first' | ⟨ended, offset, first'⟩
    · exact .inl (bind_eq_ok.mpr ⟨a, _, first', all _⟩)
    · exact .inr ⟨ended, offset, bind_eq_ok.mpr ⟨a, _, first', all _⟩⟩

theorem map (hp : EndsLine p) (g : α → β) : EndsLine (p >>= fun a => pure (g a)) := by
  apply hp.before
  intro a b c c' run
  cases run
  exact ⟨rfl, fun _ => rfl⟩

theorem of_eq_ok {q : Scan α} (hp : EndsLine p) (same : ∀ {c r}, q c = .ok r ↔ p c = .ok r) :
    EndsLine q where
  suffix _ _ _ run := hp.suffix (same.mp run)
  reads run more := by
    rcases hp.reads (same.mp run) more with run' | ⟨ended, offset, run'⟩
    · exact .inl (same.mpr run')
    · exact .inr ⟨ended, offset, same.mpr run'⟩

theorem cut (hp : EndsLine p) : EndsLine (Scan.cut p) := hp.of_eq_ok cut_eq_ok

/-- What is done does not depend on whether the line is the last one, unless nothing is read there. -/
theorem ahead {F : List Char → Scan β} (hF : ∀ cs, EndsLine (F cs))
    (same : ∀ {c r}, F c.rest c = .ok r → ∀ more, F (c.rest ++ '\n' :: more) = F c.rest) :
    EndsLine (Scan.ahead >>= F) where
  suffix _ _ _ run := (hF _).suffix run
  reads {c b c'} run more := by
    have run_eq : (Scan.ahead >>= F) (c.before more) = F (c.rest ++ '\n' :: more) (c.before more) := rfl
    rw [run_eq, same run more]
    exact (hF _).reads run more

theorem checked {g : α → Except Cause β} (hp : EndsLine p) : EndsLine (Scan.checked p g) := by
  apply behind Steady.here
  intro start
  apply hp.before
  intro a b c c' run
  cases made : g a with
  | error cause =>
    simp only [made] at run
    cases run
  | ok b' =>
    simp only [made] at run
    cases run
    exact ⟨rfl, fun _ => rfl⟩

end Scan.EndsLine

theorem endOfText_eq_ok {c c' : Cursor} : endOfText c = .ok ((), c') ↔ c.rest = [] ∧ c' = c := by
  obtain ⟨_ | ⟨x, xs⟩, offset⟩ := c
  · constructor
    · intro run
      cases run
      exact ⟨rfl, rfl⟩
    · rintro ⟨-, rfl⟩
      rfl
  · constructor
    · intro run
      cases run
    · rintro ⟨⟨⟩, -⟩

theorem endsLine_lineEnding : EndsLine lineEnding where
  suffix _ _ _ run := by
    rcases orElse_eq_ok.mp run with broken | ⟨-, ended⟩
    · exact readsOn_newline.suffix broken
    · rw [(endOfText_eq_ok.mp ended).2]
  reads {c a c'} run more := by
    rcases orElse_eq_ok.mp run with broken | ⟨-, ended⟩
    · exact .inl (orElse_eq_ok.mpr (.inl (newline_before broken more)))
    · obtain ⟨empty, rfl⟩ := endOfText_eq_ok.mp ended
      refine .inr ⟨empty, c'.offset + 1, ?_⟩
      rw [Cursor.before, empty]
      rfl

theorem endsLine_endOfLine : EndsLine endOfLine := by
  apply EndsLine.of_eq_ok _ wants_eq_ok
  apply EndsLine.behind steady_blanks
  intro
  exact .behind steady_comment.attempt fun _ => endsLine_lineEnding

theorem endsLine_pair (d : Draft) : EndsLine (pair d) := by
  apply EndsLine.checked
  apply EndsLine.behind steady_key
  intro keys
  apply EndsLine.cut
  apply EndsLine.behind ((Steady.char (by decide)).wants _)
  intro
  apply EndsLine.behind steady_blanks
  intro
  apply EndsLine.behind (readsValues_value _).steady
  intro item
  exact endsLine_endOfLine.map _

theorem endsLine_header (d : Draft) : EndsLine (header d) := by
  have bracketed {opening closing : Scan Unit} (hopening : Steady [] opening) (hclosing : Steady [] closing) :
      EndsLine (located (opening >>= fun _ => cut key >>= fun path => closing >>= fun _ => pure path) >>=
        fun found => cut endOfLine >>= fun _ => pure (found.1, found.2)) := by
    have inner := hopening.bind fun _ => steady_key.cut.bind fun path => hclosing.bind fun _ =>
      Steady.pure path
    apply EndsLine.behind inner.located
    intro found
    exact endsLine_endOfLine.cut.map _
  apply EndsLine.of_eq_ok _ label_eq_ok
  apply EndsLine.ahead
  · intro cs
    split
    · exact ⟨nofun, nofun⟩
    · apply EndsLine.checked
      exact bracketed (.text (by decide)) ((Steady.text (by decide)).cut.wants _)
    · apply EndsLine.checked
      exact bracketed (.char (by decide)) ((Steady.char (by decide)).cut.wants _)
  · intro c r run more
    obtain ⟨_ | ⟨x, _ | ⟨y, cs⟩⟩, offset⟩ := c
    · cases run
    · cases run
    · by_cases double : x = '[' ∧ y = '['
      · obtain ⟨rfl, rfl⟩ := double
        rfl
      · simp_all

theorem Scan.Shrinks.checked {α β : Type} {p : Scan α} {g : α → Except Cause β} (hp : Shrinks p) :
    Shrinks (Scan.checked p g) := by
  apply advances_here.bind_shrinks
  intro start
  apply hp.bind
  intro a
  cases g a with
  | ok b => exact advances_pure b
  | error cause => exact nofun

theorem shrinks_pair (d : Draft) : Shrinks (pair d) := by
  apply Shrinks.checked
  apply steady_key.suffix.bind_shrinks
  intro keys
  apply Shrinks.of_eq_ok _ cut_eq_ok
  apply Shrinks.bind ((shrinks_char '=').of_eq_ok wants_eq_ok)
  intro
  apply steady_blanks.suffix.bind
  intro
  apply (readsValues_value _).steady.suffix.bind
  intro item
  exact (endsLine_endOfLine.map _).suffix

theorem Scan.Shrinks.located {α : Type} {p : Scan α} (hp : Shrinks p) : Shrinks (Scan.located p) := by
  apply advances_here.bind_shrinks
  intro start
  apply hp.bind
  intro a
  exact advances_here.bind fun _ => advances_pure _

theorem shrinks_header (d : Draft) : Shrinks (header d) := by
  have bracketed {opening closing : Scan Unit} (shrinks : Shrinks opening) (hclosing : Steady [] closing) :
      Shrinks (located (opening >>= fun _ => cut key >>= fun path => closing >>= fun _ => pure path) >>=
        fun found => cut endOfLine >>= fun _ => pure (found.1, found.2)) := by
    apply Shrinks.bind
    · apply Shrinks.located
      apply shrinks.bind
      intro
      exact (steady_key.cut.bind fun path => hclosing.bind fun _ => Steady.pure path).suffix
    · intro found
      exact (endsLine_endOfLine.cut.map _).suffix
  have double : Shrinks (text "[[") := by
    intro c u c' run
    rw [(text_eq_ok.mp run).1, List.length_append]
    exact Nat.lt_add_of_pos_left (by decide)
  apply Shrinks.of_eq_ok _ label_eq_ok
  apply Advances.bind_shrinks
  · intro c cs c' run
    cases run
    exact List.suffix_rfl
  · intro cs
    split
    · exact nofun
    · apply Shrinks.checked
      exact bracketed double ((Steady.text (by decide)).cut.wants _)
    · apply Shrinks.checked
      exact bracketed (shrinks_char '[') ((Steady.char (by decide)).cut.wants _)

/-! ### Lines -/

/-- The line that begins with the character. -/
def nextLine (d : Draft) : Char → Scan Draft
  | '#' => do
    cut do
      comment
      lineEnding
    return d
  | '[' => cut (header d)
  | '\n' => do
    newline
    return d
  | '\r' => do
    if ← succeeds newline then
      newline
      return d
    else fail
  | _ => cut (pair d)

theorem lines_succ (n : Nat) (d : Draft) : lines (n + 1) d = peek? >>= fun o =>
    match o with
    | none => pure d
    | some x => nextLine d x >>= fun d => blanks >>= fun _ => lines n d := by
  rw [lines]
  congr 1
  funext o
  rcases o with _ | x
  · rfl
  · unfold nextLine
    split
    · cases ‹some x = none›
    · cases ‹some x = some '#'›
      simp
    · cases ‹some x = some '['›
      rfl
    · cases ‹some x = some '\n'›
      simp
    · cases ‹some x = some '\r'›
      simp only [bind_assoc]
      congr 1
      funext through
      cases through with
      | true => simp
      | false => rfl
    · rename_i same
      cases same
      simp_all

theorem endsLine_newline : EndsLine newline :=
  ⟨readsOn_newline.suffix, fun run more => .inl (newline_before run more)⟩

theorem returned_eq_ok (d : Draft) {c : Cursor} {r : Draft × Cursor} :
    (succeeds newline >>= fun through => if through then newline >>= fun _ => pure d else fail) c = .ok r ↔
      (newline >>= fun _ => pure d) c = .ok r := by
  rw [guarded_eq_ok, and_iff_right_iff_imp]
  intro run
  obtain ⟨_, c₁, broken, -⟩ := bind_eq_ok.mp run
  exact ⟨_, broken⟩

theorem endsLine_nextLine (d : Draft) (x : Char) : EndsLine (nextLine d x) := by
  unfold nextLine
  split
  · exact (EndsLine.behind steady_comment fun _ => endsLine_lineEnding).cut.map _
  · exact (endsLine_header d).cut
  · exact endsLine_newline.map _
  · exact (endsLine_newline.map _).of_eq_ok (returned_eq_ok d)
  · exact (endsLine_pair d).cut

theorem shrinks_nextLine (d : Draft) (x : Char) : Shrinks (nextLine d x) := by
  have broken : Shrinks (newline >>= fun _ => pure d) := shrinks_newline.bind fun _ => advances_pure d
  unfold nextLine
  split
  · apply Shrinks.bind _ fun _ => advances_pure d
    apply Shrinks.of_eq_ok _ cut_eq_ok
    exact shrinks_comment.bind fun _ => endsLine_lineEnding.suffix
  · exact (shrinks_header d).of_eq_ok cut_eq_ok
  · exact broken
  · exact broken.of_eq_ok (returned_eq_ok d)
  · exact (shrinks_pair d).of_eq_ok cut_eq_ok

theorem lines_nil (n : Nat) (d : Draft) (offset : Nat) : lines n d ⟨[], offset⟩ = .ok (d, ⟨[], offset⟩) := by
  cases n <;> rfl

/-! ### Documents -/

/-- From the draft and the place on, all of the text is read, and what is read has the property. -/
def EndsFrom (P : Draft → Prop) (d : Draft) (c : Cursor) : Prop :=
  ∀ n, c.rest.length < n → ∃ d' c', lines n d c = .ok (d', c') ∧ P d'

section

variable {P : Draft → Prop} {more : List Char} (unblank : Unblank more) {d' : Draft} (tail : Ends P d' more)
include unblank tail

theorem lines_further {n : Nat} {d : Draft} {c c' : Cursor} (enough : c.rest.length < n)
    (run : lines n d c = .ok (d', c')) : EndsFrom P d (c.before more) := by
  induction n generalizing d c with
  | zero => omega
  | succ n ih =>
    intro m enough'
    obtain ⟨m, rfl⟩ := Nat.exists_eq_succ_of_ne_zero (Nat.ne_zero_of_lt enough')
    obtain ⟨_ | ⟨x, xs⟩, offset⟩ := c
    · rw [lines_nil] at run
      cases run
      have short : more.length < m := by simpa [Cursor.before] using enough'
      obtain ⟨d'', offset', run', holds⟩ := tail m (offset + 1) short
      exact ⟨d'', _, (lines_empty unblank m offset _).trans run', holds⟩
    · rw [lines_succ] at run ⊢
      have line : (nextLine d x >>= fun d => blanks >>= fun _ => lines n d) ⟨x :: xs, offset⟩ =
          .ok (d', c') := run
      change ∃ d'' c'', (nextLine d x >>= fun d => blanks >>= fun _ => lines m d)
        (Cursor.before ⟨x :: xs, offset⟩ more) = .ok (d'', c'') ∧ P d''
      obtain ⟨d₁, c₁, first, rest⟩ := bind_eq_ok.mp line
      obtain ⟨_, c₂, gap, rest⟩ := bind_eq_ok.mp rest
      have shorter := shrinks_nextLine d x first
      have suffix := steady_blanks.suffix gap
      simp only [Cursor.before, List.length_append, List.length_cons] at enough enough' shorter
      rcases (endsLine_nextLine d x).reads first more with first' | ⟨ended, offset', first'⟩
      · have short : (c₂.before more).rest.length < m := by
          have shorter' := suffix.length_le
          simp only [Cursor.before, List.length_append, List.length_cons]
          omega
        obtain ⟨d'', c'', run', holds⟩ := ih (by have := suffix.length_le; omega) rest m short
        have gap' := steady_blanks.reads_all gap more
        exact ⟨d'', c'', bind_eq_ok.mpr ⟨d₁, _, first', bind_eq_ok.mpr ⟨(), _, gap', run'⟩⟩, holds⟩
      · -- The line is the last one; what follows is read from the draft that it leaves.
        obtain ⟨rest₂, offset₂⟩ := c₂
        rw [ended] at suffix
        obtain rfl : rest₂ = [] := List.suffix_nil.mp suffix
        rw [lines_nil] at rest
        cases rest
        obtain ⟨d'', offset'', run', holds⟩ := tail m offset' (by omega)
        have gap' := blanks_of_unblank unblank offset'
        exact ⟨d'', _, bind_eq_ok.mpr ⟨d', _, first', bind_eq_ok.mpr ⟨(), _, gap', run'⟩⟩, holds⟩

end

/-- The entries of a document are those of the draft that its lines come to. -/
theorem document_eq_ok {c c' : Cursor} {entries : Entries} :
    Grammar.document c = .ok (entries, c') ↔ ∃ o c₁ c₂ d finished,
      attempt (char '\ufeff') c = .ok (o, c₁) ∧ blanks c₁ = .ok ((), c₂) ∧
      lines (c₂.rest.length + 1) {} c₂ = .ok (d, c') ∧ d.finish = .ok finished ∧ finished.root = entries := by
  constructor
  · intro run
    obtain ⟨o, c₁, first, run⟩ := bind_eq_ok.mp run
    obtain ⟨_, c₂, gap, run⟩ := bind_eq_ok.mp run
    obtain ⟨n, _, fuel, run⟩ := bind_eq_ok.mp run
    cases fuel
    obtain ⟨d, c₃, read, last⟩ := bind_eq_ok.mp run
    cases finish : d.finish with
    | ok finished =>
      simp only [finish] at last
      cases last
      exact ⟨o, c₁, c₂, d, finished, first, gap, read, finish, rfl⟩
    | error cause =>
      simp only [finish] at last
      cases last
  · rintro ⟨o, c₁, c₂, d, finished, first, gap, run, finish, rfl⟩
    refine bind_eq_ok.mpr ⟨o, c₁, first, bind_eq_ok.mpr ⟨(), c₂, gap, ?_⟩⟩
    refine bind_eq_ok.mpr ⟨_, _, rfl, bind_eq_ok.mpr ⟨d, c', run, ?_⟩⟩
    simp only [finish]
    rfl

/-- A document with further lines behind it is read as those lines are, from the draft that the document
comes to. -/
theorem parse_further {source : String} {entries : Entries} (parsed : parse source = .ok entries) :
    ∃ d finished, d.finish = .ok finished ∧ finished.root = entries ∧
      ∀ (P : Draft → Prop) (more : List Char), Unblank more → Ends P d more → ∃ d', P d' ∧
        ∀ finished', d'.finish = .ok finished' →
          parse (source ++ String.ofList ('\n' :: more)) = .ok finished'.root := by
  have mark : Steady [] (attempt (char '\ufeff')) := (Steady.char (by decide)).attempt
  have whole : ∃ c', Grammar.document ⟨source.toList, 0⟩ = .ok (entries, c') := by
    rw [parse] at parsed
    split at parsed
    · rename_i c' run
      cases parsed
      exact ⟨c', run⟩
    · cases parsed
  obtain ⟨c', whole⟩ := whole
  obtain ⟨o, c₁, c₂, d, finished, first, gap, run, finish, root⟩ := document_eq_ok.mp whole
  refine ⟨d, finished, finish, root, fun P more unblank tail => ?_⟩
  obtain ⟨d', c'', run', holds⟩ :=
    lines_further unblank tail (Nat.lt_succ_self _) run _ (Nat.lt_succ_self _)
  refine ⟨d', holds, fun finished' finish' => ?_⟩
  have whole' : Grammar.document ⟨source.toList ++ '\n' :: more, 0⟩ = .ok (finished'.root, c'') :=
    document_eq_ok.mpr ⟨o, _, _, d', finished', mark.reads_all first more,
      steady_blanks.reads_all gap more, run', finish', rfl⟩
  have text : (source ++ String.ofList ('\n' :: more)).toList = source.toList ++ '\n' :: more := by
    rw [String.toList_append, String.toList_ofList]
  rw [parse, text, whole']

end SwitchLint.Toml
