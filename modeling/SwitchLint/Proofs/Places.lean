import Mathlib.Data.String.Basic
import SwitchLint.Proofs.Lines
import SwitchLint.Proofs.Replay

/-!
What a range says of a source. It is the range of a text if the text stands at its offsets, and if its
line and its column are those at which the text begins. The lexemes of a scan have the ranges of their
texts, and they keep them in the tree that is built from them.
-/

namespace SwitchLint

open Text
open String (utf8Len)

/-! ### Positions in bytes, lines and columns -/

namespace Position

theorem after_offset (p : Position) (cs : List Char) : (p.after cs).offset = p.offset + utf8Len cs := by
  induction cs generalizing p with
  | nil => rfl
  | cons c cs ih =>
    rw [after_cons, ih, String.utf8Len_cons]
    by_cases feed : c = '\n'
    · subst feed
      simp only [advance, if_true]
      have one : '\n'.utf8Size = 1 := rfl
      omega
    · simp only [advance, if_neg feed]
      omega

theorem after_column (p : Position) {here : List Char} (unbroken : '\n' ∉ here) :
    (p.after here).column = p.column + utf8Len here := by
  induction here generalizing p with
  | nil => rfl
  | cons c here ih =>
    obtain ⟨other, unbroken⟩ := List.ne_and_not_mem_of_not_mem_cons unbroken
    rw [after_cons, ih _ unbroken, String.utf8Len_cons]
    simp only [advance, if_neg (Ne.symm other)]
    omega

theorem after_lines {lines : List Char} (whole : WholeLines lines) :
    (origin.after lines).column = 1 := by
  rcases whole with rfl | ends
  · rfl
  · obtain ⟨first, rfl⟩ := List.getLast?_eq_some_iff.mp ends
    rw [after_append]
    rfl

end Position

theorem lines_and_here (before : List Char) :
    ∃ lines here, before = lines ++ here ∧ WholeLines lines ∧ '\n' ∉ here := by
  induction before using List.reverseRecOn with
  | nil => exact ⟨[], [], rfl, .inl rfl, List.not_mem_nil⟩
  | append_singleton before c ih =>
    by_cases feed : c = '\n'
    · exact ⟨before ++ [c], [], (List.append_nil _).symm, .inr (by simp [feed]), List.not_mem_nil⟩
    · obtain ⟨lines, here, rfl, whole, unbroken⟩ := ih
      refine ⟨lines, here ++ [c], List.append_assoc _ _ _, whole, ?_⟩
      simp [unbroken, Ne.symm feed]

/-! ### Ranges of texts -/

namespace Span

/-- The range of a text behind whole lines and a part of its own line. Offsets and columns are bytes. -/
structure IsOf (s : Span) (lines here text : List Char) : Prop where
  whole : WholeLines lines
  unbroken : '\n' ∉ here
  start : s.start = utf8Len lines + utf8Len here
  stop : s.stop = s.start + utf8Len text
  line : s.line = 1 + lines.count '\n'
  column : s.column = 1 + utf8Len here

/-- The range lies in the source, and it is that of the text, which stands there. -/
structure Covers (source : String) (s : Span) (text : String) : Prop where
  upright : s.start ≤ s.stop
  bounded : s.stop ≤ source.utf8ByteSize
  stands : ∃ lines here rest, source.toList = lines ++ here ++ text.toList ++ rest ∧
    s.IsOf lines here text.toList

/-- The range of a text behind another one. -/
def behind (before text : List Char) : Span :=
  (Position.origin.after before).upTo (Position.origin.after (before ++ text)).offset

theorem behind_start (before text : List Char) : (behind before text).start = utf8Len before := by
  simp [behind, Position.upTo, Position.after_offset, Position.origin]

theorem behind_stop (before text : List Char) :
    (behind before text).stop = utf8Len before + utf8Len text := by
  simp [behind, Position.upTo, Position.after_offset, Position.origin]

theorem behind_isOf {lines here : List Char} (whole : WholeLines lines) (unbroken : '\n' ∉ here)
    (text : List Char) : (behind (lines ++ here) text).IsOf lines here text where
  whole := whole
  unbroken := unbroken
  start := by rw [behind_start, String.utf8Len_append]
  stop := by rw [behind_stop, behind_start]
  line := by
    simp [behind, Position.upTo, Position.after_line, Position.origin,
      List.count_eq_zero_of_not_mem unbroken]
  column := by
    rw [behind, Position.upTo, Position.after_append, Position.after_column _ unbroken,
      Position.after_lines whole]

theorem behind_covers {source : String} {before text rest : List Char}
    (whole : source.toList = before ++ text ++ rest) :
    (behind before text).Covers source (String.ofList text) where
  upright := by
    rw [behind_start, behind_stop]
    exact Nat.le_add_right _ _
  bounded := by
    have bytes : source.utf8ByteSize = utf8Len (before ++ text ++ rest) := by
      rw [← whole, ← String.utf8ByteSize_ofList, String.ofList_toList]
    rw [behind_stop, bytes, String.utf8Len_append, String.utf8Len_append]
    exact Nat.le_add_right _ _
  stands := by
    obtain ⟨lines, here, rfl, feeds, unbroken⟩ := lines_and_here before
    rw [String.toList_ofList]
    exact ⟨lines, here, rest, whole, behind_isOf feeds unbroken text⟩

theorem prefix_of_bytes {a b whole : List Char} (first : a <+: whole) (second : b <+: whole)
    (fewer : utf8Len a ≤ utf8Len b) : a <+: b := by
  rcases List.prefix_or_prefix_of_prefix first second with shorter | ⟨more, rfl⟩
  · exact shorter
  · rw [String.utf8Len_append] at fewer
    have none : more = [] := String.utf8Len_eq_zero.mp (by omega)
    rw [none, List.append_nil]

/-- From the beginning of one text to the end of another one that does not end earlier. -/
theorem behind_through {source before text rest before' text' rest' : List Char}
    (whole : source = before ++ text ++ rest) (whole' : source = before' ++ text' ++ rest')
    (order : (behind before text).stop ≤ (behind before' text').stop) :
    ∃ more, rest = more ++ rest' ∧
      { behind before text with stop := (behind before' text').stop } = behind before (text ++ more) := by
  have fewer : utf8Len (before ++ text) ≤ utf8Len (before' ++ text') := by
    simpa only [behind_stop, String.utf8Len_append] using order
  obtain ⟨more, through⟩ := prefix_of_bytes ⟨rest, whole.symm⟩ ⟨rest', whole'.symm⟩ fewer
  refine ⟨more, ?_, ?_⟩
  · rw [whole, ← through, List.append_assoc (before ++ text)] at whole'
    exact List.append_cancel_left whole'
  · rw [behind_stop, ← String.utf8Len_append, ← through]
    simp [behind, Position.upTo, Position.after_offset, Position.origin]

end Span

namespace Go

namespace Lexeme

/-! ### What a lexeme looks like -/

/-- What the scanner finds at the beginning of a text. -/
inductive Finds : List Char → Shape × Nat → Prop
  | eof : Finds [] (.eof, 0)
  | nul {cs} : Finds ('\x00' :: cs) (.nul, 1)
  | raw {cs n} : Finds cs (.raw, n)
  | interpreted {cs n} : Finds cs (.interpreted, n)
  | rune {cs n} : Finds cs (.rune, n)
  | word {c cs} : isIdentifierStart c = true →
      Finds (c :: cs) (.word, 1 + (cs.takeWhile isIdentifierPart).length)
  | number {cs shape n} {r : Pattern} :
      (shape, r) ∈ [(Shape.int, intPattern), (.float, floatPattern), (.imaginary, imaginaryPattern)] →
      r.longest cs = some n → Finds cs (shape, n)
  | mark {cs n} : mark cs = some n → Finds cs (.mark, n)
  | unknown {cs n} : Finds cs (.unknown, n)

theorem finds_measure (cs : List Char) : Finds cs (measure cs) := by
  unfold measure
  split
  · exact .eof
  · exact .nul
  · rename_i c cs _
    have otherwise {found : Option (Shape × Nat)} (finds : ∀ f, found = some f → Finds (c :: cs) f) :
        Finds (c :: cs) (found.getD (.unknown, unknown (c :: cs))) := by
      cases found with
      | none => exact .unknown
      | some f => exact finds f rfl
    refine otherwise fun f hf => ?_
    split at hf
    · obtain ⟨n, -, rfl⟩ := Option.map_eq_some_iff.mp hf
      exact .raw
    split at hf
    · obtain ⟨n, -, rfl⟩ := Option.map_eq_some_iff.mp hf
      exact .interpreted
    split at hf
    · obtain ⟨n, -, rfl⟩ := Option.map_eq_some_iff.mp hf
      exact .rune
    split at hf
    · rename_i start
      obtain rfl := Option.some.inj hf
      exact .word start
    · rcases Option.or_eq_some_iff.mp hf with found | ⟨-, found⟩
      · obtain ⟨r, member, longest⟩ := number_eq_some found
        exact .number member longest
      · obtain ⟨n, length, rfl⟩ := Option.map_eq_some_iff.mp found
        exact .mark length

theorem mark_eq_some {cs : List Char} {n : Nat} (found : mark cs = some n) :
    ∃ m ∈ marks, cs.take n = m.toList := by
  obtain ⟨m, chosen, rfl⟩ := Option.map_eq_some_iff.mp found
  have begins : m.toList <+: cs := List.isPrefixOf_iff_prefix.mp (List.find?_some chosen :)
  refine ⟨m, List.mem_of_find?_eq_some chosen, ?_⟩
  rw [← String.length_toList]
  exact (List.prefix_iff_eq_take.mp begins).symm

theorem word_ends {cs : List Char} (word : (measure cs).1 = .word) :
    ∀ c ∈ (cs.drop (measure cs).2).head?, isIdentifierPart c = false := by
  have finds := finds_measure cs
  generalize measure cs = found at *
  cases finds with
  | @word c cs start =>
    have rest : (c :: cs).drop (1 + (cs.takeWhile isIdentifierPart).length) =
        cs.dropWhile isIdentifierPart := by
      have whole : cs.takeWhile isIdentifierPart ++ cs.dropWhile isIdentifierPart = cs :=
        List.takeWhile_append_dropWhile
      rw [Nat.add_comm, List.drop_succ_cons]
      nth_rewrite 2 [← whole]
      exact List.drop_left
    have kept := List.head?_dropWhile_not isIdentifierPart cs
    rw [rest]
    intro d hd
    rw [Option.mem_def.mp hd] at kept
    simpa using kept
  | number member longest =>
    obtain rfl := word
    simp at member
  | _ => cases word

theorem mark_symbols {cs : List Char} (mark : (measure cs).1 = .mark ∨ (measure cs).1 = .nul) :
    ∀ c ∈ cs.take (measure cs).2, isIdentifierPart c = false := by
  have symbols : (marks.all fun m => m.toList.all fun c => !isIdentifierPart c) = true := by decide
  simp only [List.all_eq_true, Bool.not_eq_true'] at symbols
  have finds := finds_measure cs
  generalize measure cs = found at *
  cases finds with
  | nul => simp; decide
  | mark found =>
    obtain ⟨m, member, text⟩ := mark_eq_some found
    rw [text]
    exact symbols m member
  | number member longest =>
    rcases mark with rfl | rfl <;> simp at member
  | _ => rcases mark with wrong | wrong <;> cases wrong

/-! ### Where a lexeme stands -/

/-- The lexeme and the line break before it stand in the source where they say. A word ends where no
character of an identifier follows, and a mark has none. -/
structure StandsIn (source : List Char) (l : Lexeme) : Prop where
  measured : l.Measured
  text : ∃ before rest, source = before ++ l.text.toList ++ rest ∧
    l.start = Position.origin.after before ∧
    (l.shape = .word → ∀ c ∈ rest.head?, isIdentifierPart c = false)
  newline : ∀ b ∈ l.newline, ∃ before run rest, source = before ++ run ++ rest ∧
    b.start.upTo b.stop = Span.behind before run
  symbols : l.shape = .mark ∨ l.shape = .nul → ∀ c ∈ l.text.toList, isIdentifierPart c = false

theorem StandsIn.cut {source : List Char} {l : Lexeme} (stands : l.StandsIn source)
    (mark : l.shape = .mark) (n : Nat) :
    (l.cut n).1.StandsIn source ∧ (l.cut n).2.StandsIn source := by
  obtain ⟨measured, ⟨before, rest, whole, place, -⟩, newline, symbols⟩ := stands
  obtain ⟨first, second⟩ := Step.cut_measured n measured
  have symbols := symbols (.inl mark)
  have halves : l.text.toList.take n ++ (l.text.toList.drop n ++ rest) = l.text.toList ++ rest := by
    rw [← List.append_assoc, List.take_append_drop]
  have word {s : Shape} (same : s = l.shape) : s ≠ .word := by
    rw [same, mark]
    decide
  refine ⟨⟨first, ⟨before, l.text.toList.drop n ++ rest, ?_, place, fun wrong => ?_⟩, newline, ?_⟩,
    ⟨second, ⟨before ++ l.text.toList.take n, rest, ?_, ?_, fun wrong => ?_⟩, ?_, ?_⟩⟩
  · simpa [Lexeme.cut, halves] using whole
  · exact absurd wrong (word rfl)
  · intro _ c hc
    exact symbols c (List.mem_of_mem_take (by simpa [Lexeme.cut] using hc))
  · simpa [Lexeme.cut, halves] using whole
  · simp [Lexeme.cut, place, Position.after_append]
  · exact absurd wrong (word rfl)
  · simp [Lexeme.cut]
  · intro _ c hc
    exact symbols c (List.mem_of_mem_drop (by simpa [Lexeme.cut] using hc))

theorem StandsIn.unbroken {source : List Char} {l : Lexeme} (stands : l.StandsIn source) :
    ({ l with newline := none } : Lexeme).StandsIn source :=
  ⟨stands.measured, stands.text, by simp, stands.symbols⟩

theorem feeds_bytes {run : List Char} (feeds : ∀ c ∈ run, c = '\n') : utf8Len run = run.length := by
  induction run with
  | nil => rfl
  | cons c run ih =>
    obtain ⟨rfl, later⟩ := List.forall_mem_cons.mp feeds
    rw [String.utf8Len_cons, ih later, List.length_cons]
    rfl

/-- The line break of a gap is a run of line feeds in it. -/
theorem skipGap_run (fuel : Nat) (p : Position) (cs : List Char) :
    ∀ b ∈ (skipGap fuel p none cs).newline, ∃ read run rest, cs = read ++ run ++ rest ∧
      b.start = p.after read ∧ b.stop = (b.start.after run).offset := by
  induction fuel generalizing p cs with
  | zero => simp [skipGap]
  | succ fuel ih =>
    intro b hb
    cases cs with
    | nil => cases hb
    | cons c cs =>
      by_cases feed : c = '\n'
      · subst feed
        simp only [skipGap, if_true, Option.none_or] at hb
        obtain rfl := Option.some.inj ((skipGap_keeps fuel _ _ cs).symm.trans hb)
        refine ⟨[], '\n' :: cs.takeWhile (· == '\n'), cs.dropWhile (· == '\n'), ?_, rfl, ?_⟩
        · rw [List.nil_append, List.cons_append, List.takeWhile_append_dropWhile]
        · have feeds : utf8Len (cs.takeWhile (· == '\n')) = (cs.takeWhile (· == '\n')).length :=
            feeds_bytes fun c hc => by simpa using List.mem_takeWhile_imp hc
          rw [Position.after_offset, String.utf8Len_cons, feeds]
          have one : '\n'.utf8Size = 1 := rfl
          dsimp only
          omega
      · -- No line feed yet: the run lies behind the blank or comment that is passed over here.
        rcases skipGap_succ fuel p none (c :: cs) with ⟨_, stays⟩ | ⟨_, _, positive, b', same, goes⟩
        · rw [stays] at hb
          cases hb
        · obtain rfl := same (by simpa using feed)
          rw [goes] at hb
          obtain ⟨read, run, rest, whole, place, stop⟩ := ih _ _ b hb
          refine ⟨(c :: cs).take (stride (c :: cs)) ++ read, run, rest, ?_, ?_, stop⟩
          · rw [List.append_assoc, List.append_assoc, ← List.append_assoc read, ← whole,
              List.take_append_drop]
          · rw [place, Position.after_append]

theorem stands_of_begins {source before rest : List Char} {l : Lexeme}
    (whole : source = before ++ rest) (measured : l.Measured)
    (place : l.start = Position.origin.after before) (begins : l.Begins rest)
    (newline : ∀ b ∈ l.newline, ∃ before run rest, source = before ++ run ++ rest ∧
      b.start.upTo b.stop = Span.behind before run) : l.StandsIn source where
  measured := measured
  text := by
    refine ⟨before, rest.drop (measure rest).2, ?_, place, ?_⟩
    · rw [begins.2, List.append_assoc, List.take_append_drop, whole]
    · rw [begins.1]
      exact word_ends
  newline := newline
  symbols := by
    rw [begins.1, begins.2]
    exact mark_symbols

/-- A scan reads lexemes that stand where the text that it reads does. -/
theorem scanFrom_stands (fuel : Nat) {source before cs : List Char} (whole : source = before ++ cs) :
    ∀ l ∈ scanFrom fuel (Position.origin.after before) cs, l.StandsIn source := by
  -- What is left to read is always an end of the source, and the position is that behind the rest.
  induction fuel generalizing before cs with
  | zero =>
    intro l hl
    obtain rfl := List.mem_singleton.mp hl
    exact ⟨rfl, ⟨before, cs, by simpa using whole, rfl, nofun⟩, by simp, nofun⟩
  | succ fuel ih =>
    obtain ⟨l, start, line, measured, begins, run⟩ :=
      scanFrom_succ fuel (Position.origin.after before) cs
    obtain ⟨read, text, place⟩ :=
      (skipGap_spec cs.length (Position.origin.after before) none cs (Nat.le_refl _)).1.behind
    have breaks := skipGap_run cs.length (Position.origin.after before) cs
    rw [← line] at breaks
    rw [← start] at place run
    dsimp only at text place
    generalize (skipGap cs.length (Position.origin.after before) none cs).rest = rest at *
    have source_eq : source = before ++ read ++ rest := by rw [whole, text, List.append_assoc]
    have place : l.start = Position.origin.after (before ++ read) := by
      rw [place, Position.after_append]
    have stands : l.StandsIn source := by
      refine stands_of_begins source_eq measured place begins fun b hb => ?_
      obtain ⟨read', run', rest', whole', place', stop⟩ := breaks b hb
      refine ⟨before ++ read', run', rest', by rw [whole, whole']; simp, ?_⟩
      rw [Span.behind, stop, place', ← Position.after_append, ← Position.after_append]
    rcases run with ⟨-, run⟩ | ⟨-, run⟩
    · rw [run]
      exact List.forall_mem_singleton.mpr stands
    · rw [run]
      refine List.forall_mem_cons.mpr ⟨stands, ?_⟩
      rw [place, ← begins.2, ← Position.after_append]
      refine ih ?_
      rw [List.append_assoc, begins.2, List.take_append_drop, source_eq]

theorem scan_stands (source : String) : ∀ l ∈ scan source, l.StandsIn source.toList := by
  obtain ⟨mark, whole, start⟩ := beginning_behind source
  rw [scan_eq_scanFrom, start]
  exact scanFrom_stands _ whole

end Lexeme

theorem Tree.ofSteps_stands {steps : List Step} {source : String} {t : Tree}
    (built : Tree.ofSteps steps (Lexeme.scan source) = some t) :
    ∀ l ∈ t.leaves, l.2.StandsIn source.toList :=
  Tree.ofSteps_holds (fun n _ parts stands => stands.cut (Lexeme.shape_of_isMark parts.whole) n) (fun _ stands => stands.unbroken)
    (Lexeme.scan_stands source) built

end Go

end SwitchLint
