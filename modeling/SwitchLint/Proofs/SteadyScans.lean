import SwitchLint.Proofs.TemplateSettings

/-!
What a scanner does at the end of a text and what it does where a line break and more text follow. A
scanner that cannot get beyond the end of a line does the same: it reads the same, and where another
could be tried in its place, that holds with the longer text too.
-/

namespace SwitchLint.Toml

open Grammar Scan

/-- The same place with a line break and more text behind all that is left. -/
def Cursor.before (c : Cursor) (more : List Char) : Cursor := ⟨c.rest ++ '\n' :: more, c.offset⟩

/-- The text does not hold the word. -/
def Lacks (word cs : List Char) : Prop := ¬ word <:+: cs

theorem Lacks.of_suffix {word cs rest : List Char} (lacks : Lacks word cs) (suffix : rest <:+ cs) :
    Lacks word rest := fun there => lacks (there.trans suffix.isInfix)

theorem not_lacks_nil (cs : List Char) : ¬ Lacks [] cs := fun lacks => lacks (List.nil_infix)

theorem Lacks.cons {word cs : List Char} {x : Char} (lacks : Lacks word cs) (some_word : word ≠ [])
    (other : word.head? ≠ some x) : Lacks word (x :: cs) := by
  intro there
  rcases List.infix_cons_iff.mp there with first | later
  · cases word with
    | nil => exact some_word rfl
    | cons y ys =>
      obtain ⟨rfl, -⟩ := List.cons_prefix_cons.mp first
      exact other rfl
  · exact lacks later

theorem Lacks.append {word cs : List Char} (lacks : Lacks word cs) (some_word : word ≠ [])
    {taken : List Char} (other : ∀ x ∈ taken, word.head? ≠ some x) : Lacks word (taken ++ cs) := by
  induction taken with
  | nil => exact lacks
  | cons x taken ih =>
    obtain ⟨first, others⟩ := List.forall_mem_cons.mp other
    exact (ih others).cons some_word first

/-- A failure in whose place something else is tried. -/
def Soft {α : Type} (r : Except Failure α) : Prop := ∃ f, r = .error f ∧ f.final = false

/-- A scanner that fails for good where it fails. -/
def Scan.Firm {α : Type} (p : Scan α) : Prop := ∀ ⦃c f⦄, p c = .error f → f.final = true

/-- What the scanner leaves is an end of the text before it. -/
def Scan.Advances {α : Type} (p : Scan α) : Prop := ∀ ⦃c a c'⦄, p c = .ok (a, c') → c'.rest <:+ c.rest

/-- The scanner does the same where more lines follow, except that it may go on where the word that is
awaited is not ahead in its own text. -/
structure Scan.Steady {α : Type} (word : List Char) (p : Scan α) : Prop where
  suffix : Advances p
  reads : ∀ {c a c'}, p c = .ok (a, c') →
    Lacks word c'.rest ∨ ∀ more, p (c.before more) = .ok (a, c'.before more)
  fails : ∀ {c f}, p c = .error f →
    f.final = true ∨ Lacks word c.rest ∨ ∀ more, Soft (p (c.before more))

namespace Scan

variable {α β : Type} {word : List Char} {p q : Scan α} {f : α → Scan β} {c : Cursor}

theorem bind_eq_ok {r : β × Cursor} :
    (p >>= f) c = .ok r ↔ ∃ a c', p c = .ok (a, c') ∧ f a c' = .ok r := by
  change (p c >>= fun x => f x.1 x.2) = _ ↔ _
  cases p c with
  | error e => simp [bind, Except.bind]
  | ok x => simp [bind, Except.bind, Prod.ext_iff, and_assoc]

theorem bind_eq_error {e : Failure} :
    (p >>= f) c = .error e ↔ p c = .error e ∨ ∃ a c', p c = .ok (a, c') ∧ f a c' = .error e := by
  change (p c >>= fun x => f x.1 x.2) = _ ↔ _
  cases p c with
  | error e => simp [bind, Except.bind]
  | ok x => simp [bind, Except.bind, Prod.ext_iff, and_assoc]

theorem bind_of_soft (run : Soft (p c)) : Soft ((p >>= f) c) := by
  obtain ⟨e, run, soft⟩ := run
  exact ⟨e, bind_eq_error.mpr (.inl run), soft⟩

theorem one_eq_ok {holds : Char → Bool} {x : Char} {c' : Cursor} : one holds c = .ok (x, c') ↔
    c.rest = x :: c'.rest ∧ holds x = true ∧ c'.offset = c.offset + x.utf8Size := by
  obtain ⟨_ | ⟨y, ys⟩, offset⟩ := c
  · simp [one]
  · obtain ⟨rest, offset'⟩ := c'
    by_cases own : holds y = true
    · simp [one, own]
      grind
    · simp [one, own]
      grind

theorem one_eq_error {holds : Char → Bool} {e : Failure} : one holds c = .error e ↔
    (∀ x ∈ c.rest.head?, holds x = false) ∧ { offset := c.offset } = e := by
  obtain ⟨_ | ⟨y, ys⟩, offset⟩ := c
  · simp [one]
  · by_cases own : holds y = true <;> simp [one, own]

theorem char_eq_ok {x : Char} {c' : Cursor} : char x c = .ok ((), c') ↔
    c.rest = x :: c'.rest ∧ c'.offset = c.offset + x.utf8Size := by
  rw [char, bind_eq_ok]
  constructor
  · rintro ⟨y, c₁, run, ⟨⟩⟩
    obtain ⟨first, own, offset⟩ := one_eq_ok.mp run
    obtain rfl : y = x := by simpa using own
    exact ⟨first, offset⟩
  · rintro ⟨first, offset⟩
    exact ⟨x, c', one_eq_ok.mpr ⟨first, by simp, offset⟩, rfl⟩

theorem text_eq_ok {s : String} {c' : Cursor} : text s c = .ok ((), c') ↔
    c.rest = s.toList ++ c'.rest ∧ c'.offset = c.offset + s.utf8ByteSize := by
  obtain ⟨rest, offset⟩ := c
  obtain ⟨rest', offset'⟩ := c'
  unfold text
  rw [← String.length_toList]
  split
  · rename_i there
    obtain ⟨others, rfl⟩ := List.isPrefixOf_iff_prefix.mp there
    simp [eq_comm]
  · rename_i other
    simp only [reduceCtorEq, false_iff, not_and]
    rintro rfl
    simp at other

theorem text_eq_error {s : String} {e : Failure} : text s c = .error e ↔
    ¬ s.toList <+: c.rest ∧ { offset := c.offset } = e := by
  unfold text
  rw [← List.isPrefixOf_iff_prefix]
  split <;> simp_all

theorem label_eq_ok {name : String} {r : α × Cursor} : label name p c = .ok r ↔ p c = .ok r := by
  unfold label
  cases p c <;> simp

theorem wants_eq_ok {wanted : List Wanted} {r : α × Cursor} :
    wants wanted p c = .ok r ↔ p c = .ok r := by
  unfold wants
  cases p c <;> simp

theorem cut_eq_ok {r : α × Cursor} : cut p c = .ok r ↔ p c = .ok r := by
  unfold cut
  cases p c <;> simp

theorem orElse_eq_ok {r : α × Cursor} :
    orElse p q c = .ok r ↔ p c = .ok r ∨ Soft (p c) ∧ q c = .ok r := by
  unfold orElse
  cases p c with
  | ok r' => simp [Soft]
  | error e => cases final : e.final <;> simp [Soft, final]

theorem orElse_eq_error {e : Failure} :
    orElse p q c = .error e ↔ (p c = .error e ∧ e.final = true) ∨ Soft (p c) ∧ q c = .error e := by
  unfold orElse
  cases p c with
  | ok r => simp [Soft]
  | error e' =>
    cases final : e'.final with
    | true =>
      simp only [Soft, Except.error.injEq, exists_eq_left', final, if_true, reduceCtorEq, false_and, or_false]
      exact ⟨fun same => ⟨same, same ▸ final⟩, And.left⟩
    | false =>
      simp only [Soft, Except.error.injEq, exists_eq_left', final, Bool.false_eq_true, if_false, true_and]
      exact ⟨.inr, fun both => both.elim (fun ⟨same, final'⟩ => absurd (same ▸ final') (by simp [final])) id⟩

theorem attempt_eq_some {a : α} {c' : Cursor} :
    attempt p c = .ok (some a, c') ↔ p c = .ok (a, c') := by
  unfold attempt
  cases p c with
  | ok r => simp [Prod.ext_iff]
  | error e => cases final : e.final <;> simp [final]

theorem attempt_eq_none {c' : Cursor} : attempt p c = .ok (none, c') ↔ Soft (p c) ∧ c' = c := by
  rw [eq_comm (b := c), attempt]
  cases p c with
  | ok r => simp [Soft]
  | error e => cases final : e.final <;> simp [Soft, final]

theorem peek_eq_ok {o : Option Char} {c' : Cursor} :
    peek? c = .ok (o, c') ↔ o = c.rest.head? ∧ c' = c := by
  simp only [peek?, Except.ok.injEq, Prod.mk.injEq, eq_comm]

theorem succeeds_eq_ok {b : Bool} {c' : Cursor} :
    succeeds p c = .ok (b, c') ↔ (b = true ↔ ∃ r, p c = .ok r) ∧ c = c' := by
  unfold succeeds
  cases p c <;> cases b <;> simp

/-- A scanner that is only tried where another one would get through. -/
theorem guarded_eq_ok {next : Scan β} {r : α × Cursor} :
    (succeeds next >>= fun through => if through then p else fail) c = .ok r ↔
      (∃ r', next c = .ok r') ∧ p c = .ok r := by
  rw [bind_eq_ok]
  constructor
  · rintro ⟨through, c₁, ahead, run⟩
    obtain ⟨own, rfl⟩ := succeeds_eq_ok.mp ahead
    cases through with
    | true => exact ⟨own.mp rfl, run⟩
    | false => cases run
  · rintro ⟨own, run⟩
    exact ⟨true, c, succeeds_eq_ok.mpr ⟨⟨fun _ => own, fun _ => rfl⟩, rfl⟩, run⟩

theorem guarded_of_blocked {next : Scan β} (blocked : ¬ ∃ r, next c = .ok r) :
    Soft ((succeeds next >>= fun through => if through then p else fail) c) := by
  have ahead : succeeds next c = .ok (false, c) :=
    succeeds_eq_ok.mpr ⟨⟨nofun, fun own => absurd own blocked⟩, rfl⟩
  refine ⟨{ offset := c.offset }, bind_eq_error.mpr (.inr ⟨false, c, ahead, rfl⟩), rfl⟩

/-! ### Scanners that fail for good -/

theorem firm_pure (a : α) : Firm (pure a) := nofun

theorem firm_cut (p : Scan α) : Firm (cut p) := by
  intro c e run
  unfold cut at run
  split at run
  · cases run
  · cases run
    rfl

theorem Firm.bind (hp : Firm p) (hf : ∀ a, Firm (f a)) : Firm (p >>= f) := by
  intro c e run
  rcases bind_eq_error.mp run with run | ⟨a, c', -, run⟩
  · exact hp run
  · exact hf a run

theorem Firm.map (hp : Firm p) (g : α → β) : Firm (p >>= fun a => pure (g a)) :=
  hp.bind fun a => firm_pure (g a)

theorem firm_attempt (p : Scan α) : Firm (attempt p) := by
  intro c e run
  unfold attempt at run
  split at run
  · cases run
  · split at run
    · cases run
      assumption
    · cases run

theorem firm_bound : Firm bound := nofun

theorem firm_many (p : Scan α) (n : Nat) : Firm (many p n) := by
  induction n with
  | zero => exact firm_pure []
  | succ n ih =>
    apply (firm_attempt p).bind
    intro o
    cases o with
    | none => exact firm_pure []
    | some a => exact ih.map _

/-! ### Scanners that go on in the text -/

theorem advances_pure (a : α) : Advances (pure a) := by
  intro c b c' run
  cases run
  exact List.suffix_rfl

theorem advances_here : Advances here := by
  intro c offset c' run
  cases run
  exact List.suffix_rfl

theorem Advances.bind (hp : Advances p) (hf : ∀ a, Advances (f a)) : Advances (p >>= f) := by
  intro c b c' run
  obtain ⟨a, c₁, first, second⟩ := bind_eq_ok.mp run
  exact (hf a second).trans (hp first)

theorem Advances.map (hp : Advances p) (g : α → β) : Advances (p >>= fun a => pure (g a)) :=
  hp.bind fun a => advances_pure (g a)

theorem advances_takeWhile (holds : Char → Bool) : Advances (takeWhile holds) := by
  intro c cs c' run
  cases run
  exact List.dropWhile_suffix holds

theorem Advances.attempt (hp : Advances p) : Advances (attempt p) := by
  intro c o c' run
  cases o with
  | none =>
    rw [(attempt_eq_none.mp run).2]
  | some a => exact hp (attempt_eq_some.mp run)

/-- The scanner takes a character at least. -/
def Shrinks (p : Scan α) : Prop := ∀ ⦃c a c'⦄, p c = .ok (a, c') → c'.rest.length < c.rest.length

theorem shrinks_one (holds : Char → Bool) : Shrinks (one holds) := by
  intro c x c' run
  rw [(one_eq_ok.mp run).1]
  exact Nat.lt_succ_self _

theorem Shrinks.bind (hp : Shrinks p) (hf : ∀ a, Advances (f a)) : Shrinks (p >>= f) := by
  intro c b c' run
  obtain ⟨a, c₁, first, second⟩ := bind_eq_ok.mp run
  exact Nat.lt_of_le_of_lt (hf a second).length_le (hp first)

theorem Shrinks.map (hp : Shrinks p) (g : α → β) : Shrinks (p >>= fun a => pure (g a)) :=
  hp.bind fun a => advances_pure (g a)

theorem Advances.bind_shrinks (hp : Advances p) (hf : ∀ a, Shrinks (f a)) : Shrinks (p >>= f) := by
  intro c b c' run
  obtain ⟨a, c₁, first, second⟩ := bind_eq_ok.mp run
  exact Nat.lt_of_lt_of_le (hf a second) (hp first).length_le

theorem Shrinks.of_eq_ok (hp : Shrinks p) (same : ∀ {c r}, q c = .ok r ↔ p c = .ok r) : Shrinks q :=
  fun _ _ _ run => hp (same.mp run)

theorem shrinks_char (x : Char) : Shrinks (char x) := (shrinks_one _).map fun _ => ()

theorem Shrinks.orElse (hp : Shrinks p) (hq : Shrinks q) : Shrinks (orElse p q) :=
  fun _ _ _ run => (orElse_eq_ok.mp run).elim (fun run => hp run) fun run => hq run.2

/-! ### Steady scanners -/

namespace Steady

/-- With no word that is awaited, the scanner does the same throughout. -/
theorem reads_all (hp : Steady [] p) {a : α} {c' : Cursor} (run : p c = .ok (a, c')) (more : List Char) :
    p (c.before more) = .ok (a, c'.before more) :=
  (hp.reads run).resolve_left (not_lacks_nil _) more

theorem soft_before (hp : Steady word p) (soft : Soft (p c)) :
    Lacks word c.rest ∨ ∀ more, Soft (p (c.before more)) := by
  obtain ⟨e, run, soft⟩ := soft
  rcases hp.fails run with final | others
  · rw [soft] at final
    cases final
  · exact others

theorem fails_all (hp : Steady [] p) {e : Failure} (run : p c = .error e) (soft : e.final = false)
    (more : List Char) : Soft (p (c.before more)) :=
  (hp.soft_before ⟨e, run, soft⟩).resolve_left (not_lacks_nil _) more

theorem mono (hp : Steady [] p) : Steady word p where
  suffix := hp.suffix
  reads run := .inr (hp.reads_all run)
  fails {c e} run := by
    cases final : e.final with
    | true => exact .inl rfl
    | false => exact .inr (.inr (hp.fails_all run final))

theorem pure (a : α) : Steady word (Pure.pure a : Scan α) where
  suffix := advances_pure a
  reads run := by
    cases run
    exact .inr fun _ => rfl
  fails run := nomatch run

theorem fail : Steady word (Scan.fail : Scan α) where
  suffix _ _ _ run := nomatch run
  reads run := nomatch run
  fails _ := .inr (.inr fun _ => ⟨_, rfl, rfl⟩)

/-- A scanner that fails the same way everywhere. -/
theorem failure (e : Failure) : Steady word (fun _ => .error e : Scan α) where
  suffix _ _ _ run := nomatch run
  reads run := nomatch run
  fails run := by
    cases run
    cases final : e.final with
    | true => exact .inl rfl
    | false => exact .inr (.inr fun _ => ⟨e, rfl, final⟩)

theorem refuse (cause : Cause) (offset : Nat) : Steady word (Scan.refuse cause offset : Scan α) :=
  failure _

theorem here : Steady word Scan.here where
  suffix := advances_here
  reads run := by
    cases run
    exact .inr fun _ => rfl
  fails run := nomatch run

/-- The second scanner either fails for good, or begins where the word is ahead if it was ahead of the
first one. -/
theorem bind_of (hp : Steady word p) (hf : ∀ a, Steady word (f a))
    (late : ∀ {c a c' e}, p c = .ok (a, c') → f a c' = .error e → Lacks word c'.rest →
      e.final = true ∨ Lacks word c.rest) : Steady word (p >>= f) where
  suffix := hp.suffix.bind fun a => (hf a).suffix
  reads run := by
    obtain ⟨a, c', first, second⟩ := bind_eq_ok.mp run
    rcases hp.reads first with lacks | all
    · exact .inl (lacks.of_suffix ((hf a).suffix second))
    · rcases (hf a).reads second with lacks | all'
      · exact .inl lacks
      · exact .inr fun more => bind_eq_ok.mpr ⟨a, _, all more, all' more⟩
  fails run := by
    rcases bind_eq_error.mp run with first | ⟨a, c', first, second⟩
    · rcases hp.fails first with final | lacks | all
      · exact .inl final
      · exact .inr (.inl lacks)
      · exact .inr (.inr fun more => bind_of_soft (all more))
    · rcases hp.reads first with lacks | all
      · rcases late first second lacks with final | lacks
        · exact .inl final
        · exact .inr (.inl lacks)
      · rcases (hf a).fails second with final | lacks | all'
        · exact .inl final
        · rcases late first second lacks with final | lacks
          · exact .inl final
          · exact .inr (.inl lacks)
        · refine .inr (.inr fun more => ?_)
          obtain ⟨e, second, soft⟩ := all' more
          exact ⟨e, bind_eq_error.mpr (.inr ⟨a, _, all more, second⟩), soft⟩

theorem bind (hp : Steady [] p) (hf : ∀ a, Steady [] (f a)) : Steady [] (p >>= f) :=
  hp.bind_of hf fun _ _ lacks => absurd lacks (not_lacks_nil _)

/-- The first scanner takes nothing of the word. -/
theorem bind_keeps (hp : Steady word p) (hf : ∀ a, Steady word (f a))
    (keeps : ∀ {c a c'}, p c = .ok (a, c') → Lacks word c'.rest → Lacks word c.rest) :
    Steady word (p >>= f) :=
  hp.bind_of hf fun first _ lacks => .inr (keeps first lacks)

theorem bind_firm (hp : Steady word p) (hf : ∀ a, Steady word (f a)) (firm : ∀ a, Firm (f a)) :
    Steady word (p >>= f) :=
  hp.bind_of hf fun _ second _ => .inl (firm _ second)

theorem map (hp : Steady word p) (g : α → β) : Steady word (p >>= fun a => Pure.pure (g a)) :=
  hp.bind_firm (fun a => pure (g a)) fun a => firm_pure (g a)

/-- Scanners that read the same, and fail alike but for what is said of it. -/
theorem of_alike (hp : Steady word p) (reads : ∀ {c r}, q c = .ok r ↔ p c = .ok r)
    (fails : ∀ {c e}, q c = .error e → ∃ e', p c = .error e' ∧ (e'.final = true → e.final = true))
    (soft : ∀ {c}, Soft (p c) → Soft (q c)) : Steady word q where
  suffix _ _ _ run := hp.suffix (reads.mp run)
  reads run := (hp.reads (reads.mp run)).imp_right fun all more => reads.mpr (all more)
  fails run := by
    obtain ⟨e', run, final⟩ := fails run
    exact (hp.fails run).imp final (Or.imp_right fun all more => soft (all more))

theorem label (name : String) (hp : Steady word p) : Steady word (Scan.label name p) := by
  apply hp.of_alike label_eq_ok
  · intro c e run
    unfold Scan.label at run
    split at run
    · cases run
    · rename_i e' own
      cases run
      exact ⟨e', own, id⟩
  · rintro c ⟨e, run, soft⟩
    exact ⟨{ e with label := e.label.orElse fun _ => some name }, by simp [Scan.label, run], soft⟩

theorem wants (wanted : List Wanted) (hp : Steady word p) : Steady word (Scan.wants wanted p) := by
  apply hp.of_alike wants_eq_ok
  · intro c e run
    unfold Scan.wants at run
    split at run
    · cases run
    · rename_i e' own
      cases run
      exact ⟨e', own, id⟩
  · rintro c ⟨e, run, soft⟩
    exact ⟨{ e with wanted := e.wanted ++ wanted }, by simp [Scan.wants, run], soft⟩

theorem cut (hp : Steady word p) : Steady word (Scan.cut p) where
  suffix _ _ _ run := hp.suffix (cut_eq_ok.mp run)
  reads run := (hp.reads (cut_eq_ok.mp run)).imp_right fun all more => cut_eq_ok.mpr (all more)
  fails run := .inl (firm_cut p run)

theorem attempt (hp : Steady word p) : Steady word (Scan.attempt p) where
  suffix := hp.suffix.attempt
  reads {c o c'} run := by
    cases o with
    | some a =>
      exact (hp.reads (attempt_eq_some.mp run)).imp_right fun all more => attempt_eq_some.mpr (all more)
    | none =>
      obtain ⟨soft, rfl⟩ := attempt_eq_none.mp run
      exact (hp.soft_before soft).imp_right fun all more => attempt_eq_none.mpr ⟨all more, rfl⟩
  fails run := .inl (firm_attempt p run)

theorem orElse (hp : Steady word p) (hq : Steady word q) : Steady word (Scan.orElse p q) where
  suffix _ _ _ run := (orElse_eq_ok.mp run).elim (fun run => hp.suffix run) fun run => hq.suffix run.2
  reads run := by
    rcases orElse_eq_ok.mp run with first | ⟨soft, second⟩
    · exact (hp.reads first).imp_right fun all more => orElse_eq_ok.mpr (.inl (all more))
    · rcases hp.soft_before soft with lacks | all
      · exact .inl (lacks.of_suffix (hq.suffix second))
      · exact (hq.reads second).imp_right fun all' more => orElse_eq_ok.mpr (.inr ⟨all more, all' more⟩)
  fails run := by
    rcases orElse_eq_error.mp run with ⟨-, final⟩ | ⟨soft, second⟩
    · exact .inl final
    · rcases hp.soft_before soft with lacks | all
      · exact .inr (.inl lacks)
      · refine (hq.fails second).imp_right (Or.imp_right fun all' more => ?_)
        obtain ⟨e, second', soft'⟩ := all' more
        exact ⟨e, orElse_eq_error.mpr (.inr ⟨all more, second'⟩), soft'⟩

/-! ### Characters -/

theorem one_of {holds : Char → Bool} (stops : holds '\n' = false ∨ word ≠ []) :
    Steady word (Scan.one holds) where
  suffix _ _ _ run := by
    rw [(one_eq_ok.mp run).1]
    exact List.suffix_cons _ _
  reads run := by
    obtain ⟨first, own, offset⟩ := one_eq_ok.mp run
    refine .inr fun more => one_eq_ok.mpr ⟨?_, own, offset⟩
    rw [Cursor.before, first]
    rfl
  fails {c e} run := by
    obtain ⟨other, -⟩ := one_eq_error.mp run
    obtain ⟨_ | ⟨x, xs⟩, offset⟩ := c
    · rcases stops with stops | some_word
      · refine .inr (.inr fun more => ⟨_, one_eq_error.mpr ⟨?_, rfl⟩, rfl⟩)
        rintro _ ⟨⟩
        exact stops
      · exact .inr (.inl fun there => some_word (List.infix_nil.mp there))
    · exact .inr (.inr fun more => ⟨_, one_eq_error.mpr ⟨other, rfl⟩, rfl⟩)

section Characters

variable {holds : Char → Bool} (stops : holds '\n' = false)
include stops

theorem takeWhile_before (cs more : List Char) :
    (cs ++ '\n' :: more).takeWhile holds = cs.takeWhile holds := by
  induction cs with
  | nil => simp [stops]
  | cons c cs ih => simp only [List.cons_append, List.takeWhile_cons, ih]

theorem dropWhile_before (cs more : List Char) :
    (cs ++ '\n' :: more).dropWhile holds = cs.dropWhile holds ++ '\n' :: more := by
  induction cs with
  | nil => simp [stops]
  | cons c cs ih =>
    simp only [List.cons_append, List.dropWhile_cons, ih]
    split <;> rfl

theorem one : Steady word (Scan.one holds) := one_of (.inl stops)

theorem takeWhile : Steady word (Scan.takeWhile holds) where
  suffix := advances_takeWhile holds
  reads run := by
    cases run
    refine .inr fun more => ?_
    simp only [Scan.takeWhile, Cursor.before, takeWhile_before stops, dropWhile_before stops]
  fails run := nomatch run

theorem exactly (n : Nat) : Steady word (Scan.exactly n holds) where
  suffix c a c' run := by
    simp only [Scan.exactly] at run
    split at run
    · cases run
      exact List.drop_suffix n c.rest
    · cases run
  reads {c a c'} run := by
    simp only [Scan.exactly] at run
    split at run
    · rename_i all
      cases run
      have long : n ≤ c.rest.length := by
        have short := (List.takeWhile_prefix holds (l := c.rest.take n)).length_le
        rw [List.length_take] at short
        omega
      refine .inr fun more => ?_
      simp only [Scan.exactly, Cursor.before, List.take_append_of_le_length long, all, if_true,
        List.drop_append_of_le_length long]
    · cases run
  fails {c e} run := by
    refine .inr (.inr fun more => ?_)
    simp only [Scan.exactly] at run
    split at run
    · cases run
    · rename_i other
      refine ⟨{ offset := c.offset }, ?_, rfl⟩
      simp only [← List.take_takeWhile, Scan.exactly, Cursor.before, takeWhile_before stops] at other ⊢
      rw [if_neg other]

end Characters

theorem char_of {x : Char} (stops : x ≠ '\n' ∨ word ≠ []) : Steady word (Scan.char x) := by
  refine (one_of (stops.imp_left fun other => ?_)).map fun _ => ()
  simpa using other.symm

theorem char {x : Char} (other : x ≠ '\n') : Steady word (Scan.char x) := char_of (.inl other)

theorem prefix_before {s : List Char} (one_line : '\n' ∉ s) (cs more : List Char) :
    s <+: cs ++ '\n' :: more ↔ s <+: cs := by
  induction s generalizing cs with
  | nil => simp
  | cons x s ih =>
    obtain ⟨other, one_line⟩ : '\n' ≠ x ∧ '\n' ∉ s := by simpa using one_line
    cases cs with
    | nil => simp [List.cons_prefix_cons, other.symm]
    | cons c cs => rw [List.cons_append, List.cons_prefix_cons, List.cons_prefix_cons, ih one_line cs]

theorem text {s : String} (one_line : '\n' ∉ s.toList) : Steady word (Scan.text s) where
  suffix _ _ _ run := by
    rw [(text_eq_ok.mp run).1]
    exact List.suffix_append _ _
  reads run := by
    obtain ⟨first, offset⟩ := text_eq_ok.mp run
    refine .inr fun more => text_eq_ok.mpr ⟨?_, offset⟩
    rw [Cursor.before, Cursor.before, first, List.append_assoc]
  fails run := by
    obtain ⟨other, -⟩ := text_eq_error.mp run
    refine .inr (.inr fun more => ⟨_, text_eq_error.mpr ⟨?_, rfl⟩, rfl⟩)
    rwa [Cursor.before, prefix_before one_line]

/-! ### What comes next -/

/-- What is done does not depend on whether the line is the last one. -/
theorem ahead {F : List Char → Scan β} (hF : ∀ cs, Steady word (F cs))
    (same : ∀ cs more, F (cs ++ '\n' :: more) = F cs) : Steady word (Scan.ahead >>= F) := by
  have run_eq (c : Cursor) : (Scan.ahead >>= F) c = F c.rest c := rfl
  have next (c : Cursor) (more : List Char) : F (c.before more).rest = F c.rest := same c.rest more
  constructor
  · intro c a c' run
    exact (hF _).suffix run
  · intro c a c' run
    apply ((hF _).reads run).imp_right
    intro all more
    rw [run_eq, next]
    exact all more
  · intro c e run
    apply ((hF _).fails run).imp_right ∘ Or.imp_right
    intro all more
    rw [run_eq, next]
    exact all more

theorem peek {F : Option Char → Scan β} (hF : ∀ o, Steady word (F o)) (same : F (some '\n') = F none) :
    Steady word (peek? >>= F) := by
  have next (cs more : List Char) : F (cs ++ '\n' :: more).head? = F cs.head? := by
    cases cs with
    | nil => exact same
    | cons x xs => rfl
  exact ahead (F := fun cs => F cs.head?) (fun cs => hF _) next

/-- At the end of a text and at a line break nothing is read. -/
theorem peek_soft {F : Option Char → Scan β} (hF : ∀ x, Steady word (F (some x)))
    (ended : ∀ c, Soft (F none c)) (broken : ∀ c, Soft (F (some '\n') c)) :
    Steady word (peek? >>= F) := by
  have run_eq (c : Cursor) : (peek? >>= F) c = F c.rest.head? c := rfl
  have at_end {c : Cursor} (empty : c.rest = []) : Soft ((peek? >>= F) c) ∧
      ∀ more, Soft ((peek? >>= F) (c.before more)) := by
    constructor
    · rw [run_eq, empty]
      exact ended c
    · intro more
      rw [run_eq, Cursor.before, empty]
      exact broken _
  have inside {c : Cursor} {x : Char} {xs : List Char} (first : c.rest = x :: xs) :
      (peek? >>= F) c = F (some x) c ∧
      ∀ more, (peek? >>= F) (c.before more) = F (some x) (c.before more) := by
    constructor
    · rw [run_eq, first]
      rfl
    · intro more
      rw [run_eq, Cursor.before, first]
      rfl
  constructor
  · intro c a c' run
    cases first : c.rest with
    | nil =>
      obtain ⟨e, failed, -⟩ := (at_end first).1
      cases failed.symm.trans run
    | cons x xs =>
      rw [← first]
      exact (hF x).suffix ((inside first).1 ▸ run)
  · intro c a c' run
    cases first : c.rest with
    | nil =>
      obtain ⟨e, failed, -⟩ := (at_end first).1
      cases failed.symm.trans run
    | cons x xs =>
      apply ((hF x).reads ((inside first).1 ▸ run)).imp_right
      intro all more
      rw [(inside first).2]
      exact all more
  · intro c e run
    cases first : c.rest with
    | nil => exact .inr (.inr (at_end first).2)
    | cons x xs =>
      rw [← first]
      apply ((hF x).fails ((inside first).1 ▸ run)).imp_right ∘ Or.imp_right
      intro all more
      rw [(inside first).2]
      exact all more

theorem located (hp : Steady [] p) : Steady [] (Scan.located p) := by
  apply here.bind
  intro start
  apply hp.bind
  intro a
  exact here.bind fun stop => pure _

theorem checked {g : α → Except Cause β} (hp : Steady [] p) : Steady [] (Scan.checked p g) := by
  apply here.bind
  intro start
  apply hp.bind
  intro a
  cases g a with
  | ok b => exact pure b
  | error cause => exact failure _

end Steady

/-! ### Repetition -/

/-- Both scanners do the same in texts of at most that length. -/
def AgreeWithin (k : Nat) (p q : Scan α) : Prop := ∀ c : Cursor, c.rest.length ≤ k → p c = q c

namespace AgreeWithin

variable {k : Nat} {g : α → Scan β}

theorem rfl : AgreeWithin k p p := fun _ _ => Eq.refl _

theorem behind (same : ∀ c a c', c.rest.length ≤ k → p c = .ok (a, c') → f a c' = g a c') :
    AgreeWithin k (p >>= f) (p >>= g) := by
  intro c short
  change (p c >>= fun x => f x.1 x.2) = (p c >>= fun x => g x.1 x.2)
  cases run : p c with
  | error e => exact Eq.refl _
  | ok x => exact same c x.1 x.2 short run

theorem bind_left (same : AgreeWithin k p q) : AgreeWithin k (p >>= f) (q >>= f) := by
  intro c short
  change (p c >>= fun x => f x.1 x.2) = (q c >>= fun x => f x.1 x.2)
  rw [same c short]

theorem bind (hp : Advances p) (same : ∀ a, AgreeWithin k (f a) (g a)) :
    AgreeWithin k (p >>= f) (p >>= g) := by
  apply behind
  intro c a c' short run
  exact same a c' ((hp run).length_le.trans short)

theorem bind_shrinks (hp : Shrinks p) (same : ∀ j < k, ∀ a, AgreeWithin j (f a) (g a)) :
    AgreeWithin k (p >>= f) (p >>= g) := by
  apply behind
  intro c a c' short run
  have shorter := hp run
  exact same c'.rest.length (by omega) a c' (Nat.le_refl _)

theorem peek {F G : Option Char → Scan β} (same : ∀ o, AgreeWithin k (F o) (G o)) :
    AgreeWithin k (peek? >>= F) (peek? >>= G) := by
  apply behind
  intro c o c' short run
  cases run
  exact same _ c short

end AgreeWithin

theorem many_enough (shrinks : Shrinks p) {k n m : Nat} (hn : k < n) (hm : k < m) :
    AgreeWithin k (many p n) (many p m) := by
  induction n generalizing m k with
  | zero => omega
  | succ n ih =>
    cases m with
    | zero => omega
    | succ m =>
      apply AgreeWithin.behind
      intro c o c' short first
      cases o with
      | none => rfl
      | some a =>
        have shorter := shrinks (attempt_eq_some.mp first)
        have same : AgreeWithin c'.rest.length (many p n) (many p m) := ih (by omega) (by omega)
        exact same.bind_left c' (Nat.le_refl _)

theorem bounded_run {F : Nat → Scan β} (enough : ∀ {k n m}, k < n → k < m → AgreeWithin k (F n) (F m))
    (c : Cursor) (more : List Char) :
    (bound >>= F) c = F ((c.before more).rest.length + 1) c := by
  have longer : c.rest.length ≤ (c.before more).rest.length := by
    simp only [Cursor.before, List.length_append]
    omega
  exact enough (Nat.lt_succ_self _) (Nat.lt_succ_of_le longer) c (Nat.le_refl _)

namespace Steady

theorem many (hp : Steady word p) (n : Nat) : Steady word (Scan.many p n) := by
  induction n with
  | zero => exact pure []
  | succ n ih =>
    apply hp.attempt.bind_firm
    · intro o
      cases o with
      | none => exact pure []
      | some a => exact ih.map _
    · intro o
      cases o with
      | none => exact firm_pure []
      | some a => exact (firm_many p n).map _

/-- A loop does not depend on its number of steps where that exceeds what is left of the text. -/
theorem bounded {F : Nat → Scan β} (hF : ∀ n, Steady word (F n))
    (enough : ∀ {k n m}, k < n → k < m → AgreeWithin k (F n) (F m)) : Steady word (bound >>= F) := by
  have further (c : Cursor) (more : List Char) :
      (bound >>= F) (c.before more) = F ((c.before more).rest.length + 1) (c.before more) := rfl
  have own := bounded_run enough
  constructor
  · intro c a c' run
    exact (hF _).suffix run
  · intro c a c' run
    by_cases lacks : Lacks word c'.rest
    · exact .inl lacks
    · refine .inr fun more => ?_
      rw [own c more] at run
      rw [further]
      exact ((hF _).reads run).resolve_left lacks more
  · intro c e run
    by_cases lacks : Lacks word c.rest
    · exact .inr (.inl lacks)
    · cases final : e.final with
      | true => exact .inl rfl
      | false =>
        refine .inr (.inr fun more => ?_)
        rw [own c more] at run
        rw [further]
        rcases (hF _).fails run with final' | lacks' | all
        · rw [final] at final'
          cases final'
        · exact absurd lacks' lacks
        · exact all more

theorem manyOf (hp : Steady word p) (shrinks : Shrinks p) : Steady word (bound >>= Scan.many p) :=
  bounded hp.many (many_enough shrinks)

theorem separated {separator : Scan Unit} (hp : Steady [] p) (hs : Steady [] separator)
    (shrinks : Shrinks separator) : Steady [] (Scan.separated p separator) := by
  have step : Steady [] (separator >>= fun _ => p) := hs.bind fun _ => hp
  apply hp.bind
  intro first
  rw [← bind_assoc]
  apply (step.manyOf (shrinks.bind fun _ => hp.suffix)).bind
  intro others
  exact pure _

end Steady

end Scan

end SwitchLint.Toml
