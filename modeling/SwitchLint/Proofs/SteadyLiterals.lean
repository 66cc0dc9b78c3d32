import SwitchLint.Proofs.SteadyScans

/-!
Keys, numbers, dates and strings are read the same whether the text ends behind the line or goes on.
-/

namespace SwitchLint.Toml

open Grammar Scan

/-! ### Numbers -/

section Digits

variable {holds : Char → Bool} (stops : holds '\n' = false)
include stops

theorem steady_moreDigits (n : Nat) : Steady [] (moreDigits holds n) := by
  induction n with
  | zero => exact .pure []
  | succ n ih =>
    apply Steady.peek
    · intro o
      split
      · apply (Steady.char (by decide)).bind
        intro
        apply ((Steady.one stops).wants _).cut.bind
        intro d
        exact ih.map _
      · split
        · apply (Steady.one stops).bind
          intro d
          exact ih.map _
        · exact .pure []
      · exact .pure []
    · simp [stops]

theorem moreDigits_enough {k n m : Nat} (hn : k < n) (hm : k < m) :
    AgreeWithin k (moreDigits holds n) (moreDigits holds m) := by
  induction n generalizing m k with
  | zero => omega
  | succ n ih =>
    cases m with
    | zero => omega
    | succ m =>
      have on (j : Nat) (shorter : j < k) : AgreeWithin j (moreDigits holds n) (moreDigits holds m) :=
        ih (by omega) (by omega)
      apply AgreeWithin.peek
      intro o
      split
      · apply AgreeWithin.bind_shrinks (shrinks_char _)
        intro j shorter _
        apply AgreeWithin.bind (((Steady.one stops).wants _).cut : Steady [] _).suffix
        intro d
        exact (on j shorter).bind_left
      · split
        · apply AgreeWithin.bind_shrinks (shrinks_one _)
          intro j shorter d
          exact (on j shorter).bind_left
        · exact .rfl
      · exact .rfl

theorem steady_digits : Steady [] (digits holds) := by
  apply (Steady.one stops).bind
  intro first
  rw [← bind_assoc]
  apply (Steady.bounded (steady_moreDigits stops) (moreDigits_enough stops)).bind
  intro ds
  exact .pure _

end Digits

theorem steady_sign : Steady [] sign := by
  apply Steady.peek
  · intro o
    split
    · exact (Steady.char (by decide)).map _
    · exact (Steady.char (by decide)).map _
    · exact .pure _
  · rfl

theorem steady_decimal : Steady [] decimal := by
  apply Steady.label
  apply steady_sign.bind
  intro minus
  apply Steady.peek
  · intro o
    split
    · exact (Steady.char (by decide)).map _
    · exact (steady_digits (by decide)).map _
  · rfl

theorem steady_based {mark name : String} {base : Nat} {holds : Char → Bool}
    (one_line : '\n' ∉ mark.toList) (stops : holds '\n' = false) :
    Steady [] (based mark name base holds) := by
  apply Steady.cut
  apply Steady.checked
  apply Steady.label
  apply (Steady.text one_line).bind
  intro
  exact (steady_digits stops).cut

/-- The first two characters decide how an integer is read. -/
theorem steady_integer : Steady [] Grammar.integer := by
  apply Steady.ahead
  · intro cs
    split
    · exact steady_based (by decide) (by decide)
    · exact steady_based (by decide) (by decide)
    · exact steady_based (by decide) (by decide)
    · apply Steady.here.bind
      intro start
      apply steady_decimal.bind
      rintro ⟨minus, ds⟩
      dsimp only
      split
      · exact .pure _
      · exact .refuse _ _
  · intro cs more
    rcases cs with _ | ⟨a, _ | ⟨b, cs⟩⟩
    · rfl
    · by_cases zero : a = '0'
      · rw [zero]
        rfl
      · simp [zero]
    · by_cases zero : a = '0'
      · by_cases mark : b ∈ ['x', 'o', 'b']
        · simp only [List.mem_cons, List.not_mem_nil, or_false] at mark
          rcases mark with rfl | rfl | rfl <;> rw [zero] <;> rfl
        · simp_all
      · simp [zero]

theorem steady_exponent : Steady [] exponent := by
  apply (Steady.one (by decide)).bind
  intro
  apply steady_sign.bind
  intro minus
  exact (steady_digits (by decide)).cut.map _

theorem steady_fraction : Steady [] fraction := by
  apply (Steady.char (by decide)).bind
  intro
  exact ((steady_digits (by decide)).wants _).cut

theorem steady_decimalFloat : Steady [] decimalFloat := by
  apply Steady.here.bind
  intro start
  apply steady_decimal.bind
  rintro ⟨minus, whole⟩
  have behind : Steady [] (orElse (do return ([], ← exponent)) (do
      let part ← fraction
      return (part, (← attempt exponent).getD 0))) := by
    apply Steady.orElse
    · exact steady_exponent.map _
    · apply steady_fraction.bind
      intro part
      exact steady_exponent.attempt.map _
  apply behind.bind
  rintro ⟨part, e⟩
  dsimp only
  split
  · exact .failure _
  · exact .pure _

theorem steady_specialFloat : Steady [] specialFloat := by
  have infinite : Steady [] infinity := (Steady.text (by decide)).map _
  have nan : Steady [] notANumber := (Steady.text (by decide)).map _
  apply steady_sign.bind
  intro minus
  exact (infinite.orElse nan).map _

theorem steady_float : Steady [] Grammar.float := (steady_decimalFloat.orElse steady_specialFloat).label _

/-! ### Dates and times -/

theorem steady_within (n low high : Nat) : Steady [] (within n low high) :=
  (Steady.exactly (by decide) n).checked

theorem steady_fullDate : Steady [] fullDate := by
  apply (steady_within 4 0 9999).bind
  intro year
  apply (Steady.char (by decide)).bind
  intro
  apply (steady_within 2 1 12).cut.bind
  intro month
  apply (Steady.char (by decide)).cut.bind
  intro
  apply Steady.here.bind
  intro start
  apply (steady_within 2 1 31).cut.bind
  intro day
  dsimp only
  split
  · exact (Steady.refuse _ _).map _
  · exact .pure _

theorem steady_secondFraction : Steady [] secondFraction := by
  apply (Steady.char (by decide)).bind
  intro
  apply (Steady.one (by decide)).bind
  intro first
  exact (Steady.takeWhile (by decide)).map _

theorem steady_partialTime : Steady [] partialTime := by
  apply (steady_within 2 0 23).bind
  intro hour
  apply (Steady.char (by decide)).bind
  intro
  apply Steady.cut
  apply (steady_within 2 0 59).bind
  intro minute
  apply (Steady.char (by decide)).bind
  intro
  apply (steady_within 2 0 60).bind
  intro second
  exact steady_secondFraction.attempt.map _

theorem steady_zone : Steady [] zone := by
  apply Steady.label
  apply Steady.orElse
  · exact (Steady.one (by decide)).map _
  · apply (Steady.one (by decide)).bind
    intro c
    have minutes : Steady [] (do
        let hour ← within 2 0 23
        char ':'
        return 60 * hour + (← within 2 0 59)) := by
      apply (steady_within 2 0 23).bind
      intro hour
      apply (Steady.char (by decide)).bind
      intro
      exact (steady_within 2 0 59).map _
    exact minutes.cut.map _

theorem steady_timeOfDay : Steady [] timeOfDay := by
  apply (Steady.one (by decide)).bind
  intro
  apply steady_partialTime.bind
  intro time
  apply steady_zone.attempt.bind
  intro z
  cases z <;> exact .pure _

theorem steady_dateTime : Steady [] dateTime := by
  apply Steady.orElse
  · apply Steady.label
    apply steady_fullDate.bind
    intro date
    exact steady_timeOfDay.attempt.map _
  · exact (steady_partialTime.map _).label _

/-! ### What stands between quotes -/

/-- A scanner that gets through only where the word is ahead, and then reads the same; it fails for good
if at all. -/
structure Scan.Closes {α : Type} (word : List Char) (p : Scan α) : Prop where
  firm : Firm p
  suffix : Advances p
  reads : ∀ {c a c'}, p c = .ok (a, c') →
    ¬ Lacks word c.rest ∧ ∀ more, p (c.before more) = .ok (a, c'.before more)

namespace Scan.Closes

variable {α β : Type} {word : List Char} {p : Scan α} {f : α → Scan β}

theorem steady (hp : Closes word p) : Steady [] p where
  suffix := hp.suffix
  reads run := .inr (hp.reads run).2
  fails run := .inl (hp.firm run)

theorem bind (hp : Steady word p) (firm : Firm p) (hf : ∀ a, Closes word (f a)) :
    Closes word (p >>= f) where
  firm := firm.bind fun a => (hf a).firm
  suffix := hp.suffix.bind fun a => (hf a).suffix
  reads run := by
    obtain ⟨a, c', first, second⟩ := bind_eq_ok.mp run
    obtain ⟨there, all'⟩ := (hf a).reads second
    have all := (hp.reads first).resolve_left there
    exact ⟨fun lacks => there (lacks.of_suffix (hp.suffix first)), fun more =>
      bind_eq_ok.mpr ⟨a, _, all more, all' more⟩⟩

theorem last {a : β} (hp : Steady [] p)
    (awaits : ∀ {c a c'}, p c = .ok (a, c') → ¬ Lacks word c.rest) :
    Closes word (cut p >>= fun _ => pure a) where
  firm := (firm_cut p).map fun _ => a
  suffix := (hp.cut.map fun _ => a).suffix
  reads run := by
    refine ⟨?_, (hp.cut.map fun _ => a).reads_all run⟩
    obtain ⟨b, c', closed, -⟩ := bind_eq_ok.mp run
    unfold cut at closed
    split at closed
    · cases closed
      exact awaits ‹_›
    · cases closed

end Scan.Closes

/-! ### Strings on one line -/

section

variable {word : List Char} {holds : Char → Bool} (stops : holds '\n' = false)
include stops

theorem steady_plain : Steady word (do return (← one holds) :: (← takeWhile holds)) :=
  ((Steady.one stops).bind fun _ => (Steady.takeWhile stops).map _).mono

end

theorem shrinks_plain (holds : Char → Bool) : Shrinks (do return (← one holds) :: (← takeWhile holds)) :=
  (shrinks_one holds).bind fun _ => (advances_takeWhile holds).map _

section

variable {word : List Char} (some_word : word ≠ []) (other : word.head? ≠ some '\\')
include some_word

theorem steady_escaped : Steady word escaped := by
  have code (n : Nat) (name : String) : Steady word (cut (label name (codePoint n))) :=
    (((Steady.exactly (by decide) n).checked.label _).cut).mono
  have unknown (wanted : List Wanted) (name : String) :
      Steady word (cut (wants wanted (label name fail)) : Scan Char) := ((Steady.fail.label _).wants _).cut
  apply (Steady.one_of (.inr some_word)).bind_firm
  · intro x
    split
    any_goals exact .pure _
    · exact code _ _
    · exact code _ _
    · exact unknown _ _
  · intro x
    split
    any_goals exact firm_pure _
    all_goals exact firm_cut _

include other

theorem steady_escape {α : Type} (make : Char → α) :
    Steady word (char '\\' >>= fun _ => escaped >>= fun x => pure (make x)) := by
  apply (Steady.char (by decide)).bind_keeps
  · intro
    exact (steady_escaped some_word).map _
  · intro c _ c' run lacks
    rw [(char_eq_ok.mp run).1]
    exact lacks.cons some_word other

theorem steady_basicPart : Steady word basicPart :=
  (steady_plain (by decide)).orElse (steady_escape some_word other fun x => [x])

end

theorem shrinks_escape {α : Type} (make : Char → α) :
    Shrinks (char '\\' >>= fun _ => escaped >>= fun x => pure (make x)) := by
  apply (shrinks_char _).bind
  intro
  exact Advances.map (steady_escaped (List.cons_ne_nil 'x' [])).suffix make

theorem shrinks_basicPart : Shrinks basicPart :=
  (shrinks_plain _).orElse (shrinks_escape fun x => [x])

theorem steady_basicString : Steady [] basicString := by
  have part : Steady ['\x22'] basicPart := steady_basicPart (by decide) (by decide)
  apply (Steady.char (by decide)).bind
  intro
  apply Closes.steady
  rw [← bind_assoc]
  apply Closes.bind (part.manyOf shrinks_basicPart) (firm_bound.bind (firm_many basicPart))
  intro parts
  apply Closes.last ((Steady.char (by decide)).label _)
  intro c _ c' run lacks
  exact lacks ⟨[], c'.rest, (char_eq_ok.mp (label_eq_ok.mp run)).1.symm⟩

theorem steady_literalString : Steady [] literalString := by
  apply Steady.label
  apply (Steady.char (by decide)).bind
  intro
  apply (Steady.takeWhile (by decide)).bind
  intro body
  exact (Steady.char (by decide)).cut.map _

/-! ### Strings over several lines -/

section

variable {word : List Char} (some_word : word ≠ [])
include some_word

theorem steady_newline (other : word.head? ≠ some '\r') : Steady word newline := by
  apply (Steady.char_of (.inr some_word)).orElse
  apply (Steady.char (by decide)).bind_keeps
  · intro
    exact Steady.char_of (.inr some_word)
  · intro c _ c' run lacks
    rw [(char_eq_ok.mp run).1]
    exact lacks.cons some_word other

end

theorem shrinks_newline : Shrinks newline := by
  apply (shrinks_char '\n').orElse
  apply (shrinks_char '\r').bind
  intro
  exact (Steady.char_of (.inr (List.cons_ne_nil 'x' []))).suffix

theorem steady_blanks : Steady [] blanks := (Steady.takeWhile (by decide)).map _

theorem firm_blanksAndBreaks : Firm blanksAndBreaks :=
  firm_bound.bind fun n => (firm_many _ n).map _

/-- Blanks are no part of a word that begins with none. -/
theorem lacks_before_blanks {word : List Char} {c c' : Cursor} (lacks : Lacks word c'.rest)
    (some_word : word ≠ []) (other : ∀ x ∈ word.head?, isBlank x = false)
    (run : blanks c = .ok ((), c')) : Lacks word c.rest := by
  obtain ⟨taken, c₁, first, ⟨⟩⟩ := bind_eq_ok.mp run
  cases first
  rw [← List.takeWhile_append_dropWhile (p := isBlank) (l := c.rest)]
  apply lacks.append some_word
  intro x blank first
  have own := List.mem_takeWhile_imp blank
  rw [other x first] at own
  cases own

section

variable {q : Char} (visible : q ∉ ['\n', '\r', ' ', '\t', '\\'])
include visible

theorem steady_blanksAndBreaks : Steady [q, q, q] blanksAndBreaks := by
  have gap : Steady [] (one isBlank >>= fun _ => blanks) :=
    (Steady.one (by decide)).bind fun _ => steady_blanks
  have part : Steady [q, q, q] (orElse newline (one isBlank >>= fun _ => blanks)) :=
    (steady_newline (by simp) (by simp_all)).orElse gap.mono
  have shrinks : Shrinks (orElse newline (one isBlank >>= fun _ => blanks)) :=
    shrinks_newline.orElse ((shrinks_one isBlank).bind fun _ => steady_blanks.suffix)
  rw [blanksAndBreaks, ← bind_assoc]
  exact (part.manyOf shrinks).map _

theorem steady_behindBackslash :
    Steady [q, q, q] (blanks >>= fun _ => newline >>= fun _ => blanksAndBreaks) := by
  apply steady_blanks.mono.bind_keeps
  · intro
    apply (steady_newline (by simp) (by simp_all)).bind_firm
    · intro
      exact steady_blanksAndBreaks visible
    · intro
      exact firm_blanksAndBreaks
  · intro c _ c' run lacks
    exact lacks_before_blanks lacks (by simp) (by simp_all [isBlank]) run

theorem steady_joinedLine : Steady [q, q, q] joinedLine := by
  apply (Steady.char (by decide)).bind_keeps
  · intro
    exact steady_behindBackslash visible
  · intro c _ c' run lacks
    rw [(char_eq_ok.mp run).1]
    exact lacks.cons (by simp) (by simp_all)

theorem steady_longBasicPart : Steady [q, q, q] longBasicPart := by
  apply (steady_plain (by decide)).orElse
  apply Steady.orElse
  · exact (steady_joinedLine visible).map _
  apply (steady_escape (by simp) (by simp_all) fun x => [x]).orElse
  exact (steady_newline (by simp) (by simp_all)).map _

theorem steady_longLiteralPart : Steady [q, q, q] longLiteralPart := by
  apply (steady_plain (by decide)).orElse
  exact (steady_newline (by simp) (by simp_all)).map _

/-! ### Quotes within a string -/

/-- Whether the scanner gets through is settled by the line, and it does not at the end of the text. -/
structure Settled (next : Scan Unit) : Prop where
  nonempty : ∀ {c r}, next c = .ok r → c.rest ≠ []
  same : ∀ {c : Cursor}, c.rest ≠ [] → ∀ more, (∃ r, next (c.before more) = .ok r) ↔ ∃ r, next c = .ok r

omit visible in
theorem notQuote_eq_ok {c : Cursor} : (∃ r, notQuote q c = .ok r) ↔ ∃ x ∈ c.rest.head?, x ≠ q := by
  constructor
  · rintro ⟨r, run⟩
    obtain ⟨x, c₁, run, -⟩ := bind_eq_ok.mp run
    obtain ⟨first, own, -⟩ := one_eq_ok.mp run
    exact ⟨x, by simp [first], by simpa using own⟩
  · rintro ⟨x, first, other⟩
    obtain ⟨xs, rest⟩ := List.head?_eq_some_iff.mp first
    have run : one (· != q) c = .ok (x, ⟨xs, c.offset + x.utf8Size⟩) :=
      one_eq_ok.mpr ⟨rest, by simpa using other, rfl⟩
    exact ⟨_, bind_eq_ok.mpr ⟨x, _, run, rfl⟩⟩

omit visible in
theorem settled_notQuote : Settled (notQuote q) where
  nonempty run empty := by
    obtain ⟨x, first, -⟩ := notQuote_eq_ok.mp ⟨_, run⟩
    rw [empty] at first
    cases first
  same {c} some_text more := by
    rw [notQuote_eq_ok, notQuote_eq_ok, Cursor.before]
    rw [List.head?_append_of_ne_nil _ some_text]

theorem delimiter_line : '\n' ∉ (String.ofList [q, q, q]).toList := by
  have line : '\n' ≠ q := by
    rintro rfl
    simp at visible
  simp [line]

theorem settled_delimiter : Settled (delimiter q) where
  nonempty {c r} run empty := by
    obtain ⟨_, c'⟩ := r
    have there := text_eq_ok.mp run
    simp [empty] at there
  same {c} some_text more := by
    constructor
    · rintro ⟨r, run⟩
      cases own : delimiter q c with
      | ok r => exact ⟨r, rfl⟩
      | error e =>
        obtain ⟨e', run', -⟩ := (Steady.text (delimiter_line visible)).fails_all own
          (by rw [← (text_eq_error.mp own).2]) more
        cases run.symm.trans run'
    · rintro ⟨r, run⟩
      exact ⟨_, (Steady.text (delimiter_line visible)).reads_all run more⟩

omit visible in
theorem steady_quotesThen {quotes : Scan Unit} {next : Scan Unit} (settled : Settled next) {α : Type} (a : α)
    (hq : Steady [] quotes)
    (short : ∀ {c c'}, quotes c = .ok ((), c') → c'.rest = [] → Lacks [q, q, q] c.rest) :
    Steady [q, q, q] (quotes >>= fun _ => succeeds next >>= fun b => if b then pure a else fail) where
  suffix _ _ _ run := by
    obtain ⟨_, c₁, first, second⟩ := bind_eq_ok.mp run
    cases (guarded_eq_ok.mp second).2
    exact hq.suffix first
  reads run := by
    obtain ⟨_, c₁, first, second⟩ := bind_eq_ok.mp run
    obtain ⟨⟨r, through⟩, last⟩ := guarded_eq_ok.mp second
    cases last
    refine .inr fun more => bind_eq_ok.mpr ⟨(), _, hq.reads_all first more, guarded_eq_ok.mpr ⟨?_, rfl⟩⟩
    exact (settled.same (settled.nonempty through) more).mpr ⟨r, through⟩
  fails {c e} run := by
    rcases bind_eq_error.mp run with first | ⟨_, c₁, first, second⟩
    · cases final : e.final with
      | true => exact .inl rfl
      | false => exact .inr (.inr fun more => bind_of_soft (hq.fails_all first final more))
    · by_cases ended : c₁.rest = []
      · exact .inr (.inl (short first ended))
      · refine .inr (.inr fun more => ?_)
        have blocked : ¬ ∃ r, next (c₁.before more) = .ok r := by
          rw [settled.same ended more]
          intro through
          cases (guarded_eq_ok.mpr ⟨through, rfl⟩).symm.trans second
        rw [bind_of_ok (hq.reads_all first more)]
        exact guarded_of_blocked blocked

theorem steady_quotesBefore {next : Scan Unit} (settled : Settled next) :
    Steady [q, q, q] (quotesBefore q next) := by
  have line : q ≠ '\n' := by simp_all
  have quote : Steady [] (char q) := .char line
  have short (cs : List Char) (length : cs.length ≤ 2) : Lacks [q, q, q] cs := by
    intro there
    have long := there.length_le
    simp at long
    omega
  apply Steady.orElse
  · have two : Steady [] (char q >>= fun _ => char q) := quote.bind fun _ => quote
    rw [← bind_assoc]
    apply steady_quotesThen settled [q, q] two
    intro c c' run ended
    obtain ⟨_, c₁, first, second⟩ := bind_eq_ok.mp run
    apply short
    rw [(char_eq_ok.mp first).1, (char_eq_ok.mp second).1, ended]
    exact Nat.le_refl 2
  · apply steady_quotesThen settled [q] quote
    intro c c' run ended
    apply short
    rw [(char_eq_ok.mp run).1, ended]
    exact Nat.le_succ 1

omit visible in
theorem quotes_of_quotesBefore {next : Scan Unit} {c c' : Cursor} {qs : List Char}
    (run : quotesBefore q next c = .ok (qs, c')) :
    (c.rest = q :: q :: c'.rest ∨ c.rest = q :: c'.rest) ∧ ∃ r, next c' = .ok r := by
  rcases orElse_eq_ok.mp run with run | ⟨-, run⟩
  · obtain ⟨_, c₁, first, run⟩ := bind_eq_ok.mp run
    obtain ⟨_, c₂, second, run⟩ := bind_eq_ok.mp run
    obtain ⟨through, ⟨⟩⟩ := guarded_eq_ok.mp run
    rw [(char_eq_ok.mp first).1, (char_eq_ok.mp second).1]
    exact ⟨.inl rfl, through⟩
  · obtain ⟨_, c₁, first, run⟩ := bind_eq_ok.mp run
    obtain ⟨through, ⟨⟩⟩ := guarded_eq_ok.mp run
    rw [(char_eq_ok.mp first).1]
    exact ⟨.inr rfl, through⟩

omit visible in
theorem shrinks_quotesBefore (next : Scan Unit) : Shrinks (quotesBefore q next) := by
  intro c qs c' run
  rcases (quotes_of_quotesBefore run).1 with first | first
  · rw [first]
    simp only [List.length_cons]
    omega
  · rw [first]
    exact Nat.lt_succ_self _

omit visible in
/-- Two quotes before another character are no part of three. -/
theorem lacks_before_quotes {c c' : Cursor} {qs : List Char} (lacks : Lacks [q, q, q] c'.rest)
    (run : quotesBefore q (notQuote q) c = .ok (qs, c')) : Lacks [q, q, q] c.rest := by
  obtain ⟨quotes, through⟩ := quotes_of_quotesBefore run
  obtain ⟨x, first, other⟩ := notQuote_eq_ok.mp through
  obtain ⟨xs, rest⟩ := List.head?_eq_some_iff.mp first
  rw [rest] at lacks quotes
  unfold Lacks at lacks ⊢
  rcases quotes with quotes | quotes
  · simpa [quotes, List.infix_cons_iff, List.cons_prefix_cons, other.symm] using lacks
  · simpa [quotes, List.infix_cons_iff, List.cons_prefix_cons, other.symm] using lacks

section

variable {part : Scan (List Char)} (hpart : Steady [q, q, q] part) (shrinks : Shrinks part)
include hpart shrinks

theorem steady_longBody : Steady [q, q, q] (longBody q part) := by
  have parts : Steady [q, q, q] (bound >>= many part) := hpart.manyOf shrinks
  have firm : Firm (bound >>= many part) := firm_bound.bind (firm_many part)
  have behind (quotes : List Char) : Steady [q, q, q] (part >>= fun first =>
      bound >>= fun n => many part n >>= fun rest => pure (quotes ++ first ++ rest.flatten)) := by
    apply hpart.bind_firm
    · intro first
      rw [← bind_assoc]
      exact parts.map _
    · intro first
      rw [← bind_assoc]
      exact firm.map _
  have further : Steady [q, q, q] (quotesBefore q (notQuote q) >>= fun quotes => part >>= fun first =>
      bound >>= fun n => many part n >>= fun rest => pure (quotes ++ first ++ rest.flatten)) := by
    apply (steady_quotesBefore visible settled_notQuote).bind_keeps behind
    intro c quotes c' run lacks
    exact lacks_before_quotes lacks run
  rw [longBody, ← bind_assoc]
  apply parts.bind_firm
  · intro first
    rw [← bind_assoc]
    exact (further.manyOf ((shrinks_quotesBefore _).bind fun quotes => (behind quotes).suffix)).map _
  · intro first
    exact firm_bound.bind fun n => (firm_many _ n).map _

end

theorem steady_lastQuotes : Steady [q, q, q] (lastQuotes q) :=
  (steady_quotesBefore visible (settled_delimiter visible)).attempt.map _

omit visible in
theorem firm_lastQuotes : Firm (lastQuotes q) := (firm_attempt _).map _

theorem steady_delimiter : Steady [] (delimiter q) := .text (delimiter_line visible)

theorem closes_delimiter (s : String) : Closes [q, q, q] (cut (delimiter q) >>= fun _ => pure s) := by
  apply Closes.last (steady_delimiter visible)
  intro c _ c' run lacks
  have first := (text_eq_ok.mp run).1
  rw [String.toList_ofList] at first
  exact lacks (first ▸ (List.prefix_append _ _).isInfix)

theorem steady_openingBreak : Steady [q, q, q] (attempt newline) :=
  (steady_newline (by simp) (by simp_all)).attempt

end

theorem shrinks_joinedLine : Shrinks joinedLine :=
  (shrinks_char _).bind fun _ => (steady_behindBackslash (show '\x22' ∉ _ by decide)).suffix

theorem shrinks_longBasicPart : Shrinks longBasicPart := by
  apply (shrinks_plain _).orElse
  apply Shrinks.orElse
  · exact shrinks_joinedLine.map _
  apply (shrinks_escape fun x => [x]).orElse
  exact shrinks_newline.map _

theorem shrinks_longLiteralPart : Shrinks longLiteralPart := by
  apply (shrinks_plain _).orElse
  exact shrinks_newline.map _

theorem steady_longBasicString : Steady [] longBasicString := by
  have visible : '\x22' ∉ ['\n', '\r', ' ', '\t', '\\'] := by decide
  apply Steady.label
  apply (steady_delimiter visible).bind
  intro
  apply Closes.steady
  apply Closes.bind (steady_openingBreak visible) (firm_attempt _)
  intro
  apply Closes.bind (steady_longBody visible (steady_longBasicPart visible) shrinks_longBasicPart).cut
    (firm_cut _)
  intro body
  apply Closes.bind (steady_quotesBefore visible settled_notQuote).attempt (firm_attempt _)
  intro
  apply Closes.bind (steady_lastQuotes visible) firm_lastQuotes
  intro last
  exact closes_delimiter visible _

theorem steady_longLiteralString : Steady [] longLiteralString := by
  have visible : '\x27' ∉ ['\n', '\r', ' ', '\t', '\\'] := by decide
  apply Steady.label
  apply (steady_delimiter visible).bind
  intro
  apply Closes.steady
  apply Closes.bind (steady_openingBreak visible) (firm_attempt _)
  intro
  apply Closes.bind (steady_longBody visible (steady_longLiteralPart visible) shrinks_longLiteralPart).cut
    (firm_cut _)
  intro body
  apply Closes.bind (steady_lastQuotes visible) firm_lastQuotes
  intro last
  exact closes_delimiter visible _

theorem steady_string : Steady [] Grammar.string :=
  steady_longBasicString.orElse <| steady_basicString.orElse <|
    steady_longLiteralString.orElse steady_literalString

/-! ### Keys -/

theorem steady_simpleKey : Steady [] simpleKey := by
  apply Steady.peek
  · intro o
    split
    · exact steady_basicString
    · exact steady_literalString
    · apply (Steady.one (by decide)).bind
      intro first
      exact (Steady.takeWhile (by decide)).map _
  · rfl

theorem steady_key : Steady [] key := by
  apply Steady.checked
  apply Steady.label
  refine Steady.separated ?_ (.char (by decide)) (shrinks_char '.')
  apply steady_blanks.bind
  intro
  apply steady_simpleKey.located.bind
  intro named
  exact steady_blanks.map _

end SwitchLint.Toml
