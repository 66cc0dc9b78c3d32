import Mathlib.Data.List.Basic
import SwitchLint.Go.Lexeme

/-!
What a Go source is made of. From its beginning to its end it is blanks, comments and lexemes, each as
long as the scanner measures it. The points at which one of them begins are those that reading comes
past; the lexemes of a scan are what begins at the points that are settled, that is, where neither a
blank nor a comment does.
-/

namespace SwitchLint

namespace Position

@[simp] theorem after_nil (p : Position) : p.after [] = p := rfl

theorem after_cons (p : Position) (c : Char) (cs : List Char) :
    p.after (c :: cs) = (p.advance c).after cs := rfl

theorem after_append (p : Position) (xs ys : List Char) :
    p.after (xs ++ ys) = (p.after xs).after ys := List.foldl_append

theorem after_line (p : Position) (cs : List Char) : (p.after cs).line = p.line + cs.count '\n' := by
  induction cs generalizing p with
  | nil => rfl
  | cons c cs ih =>
    rw [after_cons, ih, List.count_cons]
    by_cases feed : c = '\n'
    · simp [advance, feed]
      omega
    · simp [advance, feed]

end Position

namespace Go.Lexeme

open Text

/-- Length of what begins a text: a blank, a comment or a lexeme. -/
def stride : List Char → Nat
  | [] => 0
  | c :: cs => if isSpace c then 1 else (comment (c :: cs)).getD (measure (c :: cs)).2

/-- Reading on from a point, one comes past the other. A point is a position with the text behind it. -/
inductive Passes : Position × List Char → Position × List Char → Prop
  | here {point} : Passes point point
  | on {p : Position} {cs : List Char} {point} : cs ≠ [] →
      Passes (p.after (cs.take (stride cs)), cs.drop (stride cs)) point → Passes (p, cs) point

/-- Where reading begins: behind the byte order mark, if there is one. -/
def beginning (source : String) : Position × List Char :=
  match source.toList with
  | '\ufeff' :: cs => (Position.origin.advance '\ufeff', cs)
  | cs => (Position.origin, cs)

/-- Neither a blank nor a comment begins the text. -/
def Settled (cs : List Char) : Prop := (∀ c ∈ cs.head?, isSpace c = false) ∧ comment cs = none

theorem Passes.trans {a b c : Position × List Char} (first : Passes a b) (second : Passes b c) :
    Passes a c := by
  induction first with
  | here => exact second
  | on more _ ih => exact .on more (ih second)

theorem Passes.behind {a b : Position × List Char} (passes : Passes a b) :
    ∃ read, a.2 = read ++ b.2 ∧ b.1 = a.1.after read := by
  induction passes with
  | here => exact ⟨[], rfl, rfl⟩
  | @on p cs point _ _ ih =>
    obtain ⟨read, text, place⟩ := ih
    refine ⟨cs.take (stride cs) ++ read, ?_, ?_⟩
    · rw [List.append_assoc, ← text, List.take_append_drop]
    · rw [place, Position.after_append]

theorem beginning_behind (source : String) : ∃ mark,
    source.toList = mark ++ (beginning source).2 ∧
      (beginning source).1 = Position.origin.after mark := by
  unfold beginning
  split
  · rename_i cs whole
    exact ⟨['\ufeff'], whole, rfl⟩
  · exact ⟨[], rfl, rfl⟩

/-- The point behind `n` pieces. -/
def pieces : Nat → Position × List Char → Position × List Char
  | 0, point => point
  | n + 1, (p, cs) => pieces n (p.after (cs.take (stride cs)), cs.drop (stride cs))

theorem passes_pieces (n : Nat) (point : Position × List Char) : Passes point (pieces n point) := by
  induction n generalizing point with
  | zero => exact .here
  | succ n ih =>
    obtain ⟨p, cs⟩ := point
    cases cs with
    | nil => exact ih (p, [])
    | cons c cs => exact .on (List.cons_ne_nil c cs) (ih _)

/-- The position of a point is that behind all that stands before it. -/
theorem passes_beginning {source : String} {p : Position} {rest : List Char}
    (passes : Passes (beginning source) (p, rest)) :
    ∃ read, source.toList = read ++ rest ∧ p = Position.origin.after read := by
  obtain ⟨mark, whole, start⟩ := beginning_behind source
  obtain ⟨read, text, place⟩ := passes.behind
  exact ⟨mark ++ read, by rw [whole, text, List.append_assoc],
    by rw [Position.after_append, ← start]; exact place⟩

/-! ### The scanner -/

theorem comment_length {cs : List Char} {n : Nat} (found : comment cs = some n) : 0 < n := by
  unfold comment at found
  split at found
  · simp only [Option.some.injEq] at found
    omega
  · obtain ⟨m, _, rfl⟩ := Option.map_eq_some_iff.mp found
    omega
  · cases found

theorem stride_of_comment {c : Char} {cs : List Char} {n : Nat} (dense : isSpace c = false)
    (found : comment (c :: cs) = some n) : stride (c :: cs) = n := by
  simp [stride, dense, found]

theorem stride_of_settled {cs : List Char} (settled : Settled cs) : stride cs = (measure cs).2 := by
  cases cs with
  | nil => rfl
  | cons c cs =>
    have dense : isSpace c = false := settled.1 c rfl
    simp [stride, dense, settled.2]

/-- Skipping a gap stops at a settled point; anywhere else it goes on by one piece, and only at a line
feed does it remember a line break. -/
theorem skipGap_succ (fuel : Nat) (p : Position) (b : Option Break) (cs : List Char) :
    (Settled cs ∧ skipGap (fuel + 1) p b cs = ⟨p, b, cs⟩) ∨
      (¬ Settled cs ∧ cs ≠ [] ∧ 0 < stride cs ∧ ∃ b', (cs.head? ≠ some '\n' → b' = b) ∧
        skipGap (fuel + 1) p b cs =
          skipGap fuel (p.after (cs.take (stride cs))) b' (cs.drop (stride cs))) := by
  cases cs with
  | nil => exact .inl ⟨⟨by simp, rfl⟩, rfl⟩
  | cons c cs =>
    by_cases blank : isSpace c = true
    · have one : stride (c :: cs) = 1 := by simp [stride, blank]
      refine .inr ⟨fun settled => ?_, List.cons_ne_nil c cs, one ▸ Nat.one_pos, ?_⟩
      · simp [settled.1 c rfl] at blank
      · rw [one]
        by_cases feed : c = '\n'
        · exact ⟨_, fun other => absurd (congrArg some feed) other, by
            simp only [skipGap, if_pos feed]
            rfl⟩
        · exact ⟨b, fun _ => rfl, by
            simp only [skipGap, if_neg feed, if_pos blank]
            rfl⟩
    · have dense : isSpace c = false := by simpa using blank
      have other : c ≠ '\n' := by
        rintro rfl
        cases dense
      cases found : comment (c :: cs) with
      | none =>
        refine .inl ⟨⟨by simpa using dense, found⟩, ?_⟩
        simp only [skipGap, if_neg other, if_neg blank, found]
      | some n =>
        have length := stride_of_comment dense found
        refine .inr ⟨fun settled => ?_, List.cons_ne_nil c cs, length ▸ comment_length found, b,
          fun _ => rfl, ?_⟩
        · rw [settled.2] at found
          cases found
        · rw [length]
          simp only [skipGap, if_neg other, if_neg blank, found]

/-- A gap ends at the next settled point. -/
theorem skipGap_spec (fuel : Nat) (p : Position) (b : Option Break) (cs : List Char)
    (enough : cs.length ≤ fuel) :
    Passes (p, cs) ((skipGap fuel p b cs).stop, (skipGap fuel p b cs).rest) ∧
      Settled (skipGap fuel p b cs).rest ∧
      ∀ q rest, Settled rest → Passes (p, cs) (q, rest) →
        Passes ((skipGap fuel p b cs).stop, (skipGap fuel p b cs).rest) (q, rest) := by
  induction fuel generalizing p b cs with
  | zero =>
    obtain rfl : cs = [] := List.length_eq_zero_iff.mp (Nat.le_zero.mp enough)
    exact ⟨.here, ⟨by simp [skipGap], rfl⟩, fun _ _ _ passes => passes⟩
  | succ fuel ih =>
    rcases skipGap_succ fuel p b cs with ⟨settled, stays⟩ | ⟨loose, nonempty, positive, b', -, goes⟩
    · rw [stays]
      exact ⟨.here, settled, fun _ _ _ passes => passes⟩
    · have shorter : (cs.drop (stride cs)).length ≤ fuel := by
        rw [List.length_drop]
        omega
      obtain ⟨passes, settled, next⟩ := ih (p.after (cs.take (stride cs))) b' _ shorter
      rw [goes]
      refine ⟨.on nonempty passes, settled, fun q rest hrest walk => ?_⟩
      cases walk with
      | here => exact absurd hrest loose
      | on _ walk => exact next q rest hrest walk

/-! ### Lexemes -/

theorem le_of_longestFrom {r : Pattern} {taken n : Nat} {best : Option Nat} {cs : List Char}
    (found : r.longestFrom taken best cs = some n) : best = some n ∨ taken ≤ n := by
  have here {r : Pattern} {taken : Nat} {best : Option Nat}
      (found : (if r.nullable then some taken else best) = some n) : best = some n ∨ taken ≤ n := by
    split at found
    · exact .inr (Nat.le_of_eq (Option.some.inj found))
    · exact .inl found
  induction cs generalizing r taken best with
  | nil =>
    unfold Pattern.longestFrom at found
    exact here found
  | cons c cs ih =>
    unfold Pattern.longestFrom at found
    dsimp only at found
    split at found
    · exact here found
    · rcases ih found with stop | further
      · exact here stop
      · exact .inr (Nat.le_of_succ_le further)

theorem longest_positive {r : Pattern} {cs : List Char} {n : Nat} (filled : r.nullable = false)
    (found : r.longest cs = some n) : 0 < n := by
  unfold Pattern.longest Pattern.longestFrom at found
  simp only [filled, Bool.false_eq_true, if_false] at found
  cases cs with
  | nil => cases found
  | cons c cs =>
    dsimp only at found
    split at found
    · cases found
    · exact (le_of_longestFrom found).resolve_left (by simp)

/-- A lexeme that is not the end of the text, with its length. -/
def Solid (found : Shape × Nat) : Prop := found.1 ≠ .eof ∧ 0 < found.2

/-- A number is the longest text of one of three patterns. -/
theorem number_eq_some {cs : List Char} {found : Shape × Nat} (number : number cs = some found) :
    ∃ r, (found.1, r) ∈ [(Shape.int, intPattern), (.float, floatPattern), (.imaginary, imaginaryPattern)] ∧
      r.longest cs = some found.2 := by
  -- Whatever the fold keeps is one of the candidates.
  suffices chosen : ∀ (candidates : List (Shape × Option Nat)) (best : Option (Shape × Nat)),
      ∀ b, candidates.foldl _ best = some b → best = some b ∨ (b.1, some b.2) ∈ candidates by
    rcases chosen _ none found number with wrong | member
    · cases wrong
    · simpa [eq_comm, and_comm, or_and_right, exists_or] using member
  intro candidates
  induction candidates with
  | nil => exact fun best b kept => .inl kept
  | cons c candidates ih =>
    intro best b kept
    rw [List.foldl_cons] at kept
    rcases ih _ b kept with here | later
    · obtain ⟨s, length⟩ := c
      split at here
      · rename_i n same
        obtain rfl := Option.some.inj here
        exact .inr (by simp [← same])
      · rename_i b' n same
        split at here
        · obtain rfl := Option.some.inj here
          exact .inr (by simp [← same])
        · exact .inl here
      · exact .inl here
    · exact .inr (List.mem_cons_of_mem c later)

theorem number_solid {cs : List Char} {found : Shape × Nat} (number : number cs = some found) :
    Solid found := by
  have filled : ∀ c ∈ [(Shape.int, intPattern), (.float, floatPattern), (.imaginary, imaginaryPattern)],
      c.1 ≠ .eof ∧ c.2.nullable = false := by decide
  obtain ⟨r, member, longest⟩ := number_eq_some number
  obtain ⟨named, filled⟩ := filled _ member
  exact ⟨named, longest_positive filled longest⟩

theorem mark_positive {cs : List Char} {n : Nat} (found : mark cs = some n) : 0 < n := by
  obtain ⟨m, chosen, rfl⟩ := Option.map_eq_some_iff.mp found
  have filled : ∀ m ∈ marks, 0 < m.length := by decide
  exact filled m (List.mem_of_find?_eq_some chosen)

theorem unknown_positive (cs : List Char) : 0 < unknown cs := by
  unfold unknown
  split
  · omega
  · omega
  · split <;> omega
  · omega

theorem measure_solid (c : Char) (cs : List Char) : Solid (measure (c :: cs)) := by
  have otherwise {found : Option (Shape × Nat)} (solid : ∀ f, found = some f → Solid f) :
      Solid (found.getD (.unknown, unknown (c :: cs))) := by
    cases found with
    | none => exact ⟨nofun, unknown_positive _⟩
    | some f => exact solid f rfl
  have of_map {s : Shape} {length : Option Nat} {g : Nat → Nat} (named : s ≠ .eof)
      (positive : ∀ n, length = some n → 0 < g n) :
      ∀ f, length.map (fun n => (s, g n)) = some f → Solid f := by
    intro f hf
    obtain ⟨n, hn, rfl⟩ := Option.map_eq_some_iff.mp hf
    exact ⟨named, positive n hn⟩
  unfold measure
  split
  · contradiction
  · exact ⟨nofun, Nat.one_pos⟩
  · rename_i text
    obtain ⟨rfl, rfl⟩ := List.cons.inj text
    refine otherwise ?_
    split
    · exact of_map nofun fun n _ => Nat.succ_pos n
    split
    · exact of_map nofun fun n _ => Nat.succ_pos n
    split
    · exact of_map nofun fun n hn => longest_positive (by decide) hn
    split
    · rintro f ⟨⟩
      exact ⟨nofun, by omega⟩
    · intro f hf
      rcases Option.or_eq_some_iff.mp hf with number | ⟨_, mark⟩
      · exact number_solid number
      · exact of_map (s := .mark) nofun (fun n hn => mark_positive hn) f mark

/-! ### The lexemes of a scan -/

/-- The lexeme is what the scanner measures at the beginning of the text. -/
def Begins (l : Lexeme) (rest : List Char) : Prop :=
  l.shape = (measure rest).1 ∧ l.text.toList = rest.take (measure rest).2

/-- A scan is the lexeme behind the first gap, followed by the scan of what is left behind it. -/
theorem scanFrom_succ (fuel : Nat) (p : Position) (cs : List Char) :
    let gap := skipGap cs.length p none cs
    let n := (measure gap.rest).2
    ∃ l : Lexeme, l.start = gap.stop ∧ l.newline = gap.newline ∧ l.stop = l.finish.offset ∧
      l.Begins gap.rest ∧
      ((gap.rest = [] ∧ scanFrom (fuel + 1) p cs = [l]) ∨ (gap.rest ≠ [] ∧
        scanFrom (fuel + 1) p cs =
          l :: scanFrom fuel (gap.stop.after (gap.rest.take n)) (gap.rest.drop n))) := by
  intro gap n
  cases text : gap.rest with
  | nil =>
    refine ⟨⟨.eof, "", gap.stop, gap.stop.offset, gap.newline⟩, rfl, rfl, rfl, ⟨rfl, rfl⟩,
      .inl ⟨rfl, ?_⟩⟩
    rw [scanFrom]
    simp only [show (skipGap cs.length p none cs).rest = [] from text]
    rfl
  | cons c cs' =>
    have solid := measure_solid c cs'
    refine ⟨⟨(measure (c :: cs')).1, String.ofList ((c :: cs').take n), gap.stop,
      (gap.stop.after ((c :: cs').take n)).offset, gap.newline⟩, rfl, rfl, ?_, ⟨rfl, ?_⟩,
      .inr ⟨List.cons_ne_nil c cs', ?_⟩⟩
    · simp [finish]
    · simp [n, text]
    · rw [scanFrom]
      simp only [show (skipGap cs.length p none cs).rest = c :: cs' from text]
      split
      · rename_i m measured
        rw [measured] at solid
        exact absurd rfl solid.1
      · rename_i shape m _ measured
        simp [n, text, measured, gap]

/-- The lexemes of a scan are what begins at the settled points. -/
theorem scanFrom_spec (fuel : Nat) (p : Position) (cs : List Char) (enough : cs.length < fuel) :
    (∀ l ∈ scanFrom fuel p cs, ∃ rest, Passes (p, cs) (l.start, rest) ∧ Settled rest ∧ l.Begins rest) ∧
    ∀ q rest, Passes (p, cs) (q, rest) → Settled rest →
      ∃ l ∈ scanFrom fuel p cs, l.start = q ∧ l.Begins rest := by
  induction fuel generalizing p cs with
  | zero => exact absurd enough (Nat.not_lt_zero _)
  | succ fuel ih =>
    obtain ⟨passes, settled, next⟩ := skipGap_spec cs.length p none cs (Nat.le_refl _)
    obtain ⟨l, start, -, -, begins, run⟩ := scanFrom_succ fuel p cs
    rw [← start] at passes next
    generalize (skipGap cs.length p none cs).rest = text at *
    rcases run with ⟨rfl, run⟩ | ⟨more, run⟩
    · rw [run]
      refine ⟨fun l' hl' => ?_, fun q rest walk hrest => ?_⟩
      · obtain rfl := List.mem_singleton.mp hl'
        exact ⟨[], passes, settled, begins⟩
      · cases next q rest hrest walk with
        | here => exact ⟨l, List.mem_singleton_self l, rfl, begins⟩
        | on some => exact absurd rfl some
    · have length := stride_of_settled settled
      have shorter : (text.drop (measure text).2).length < fuel := by
        obtain ⟨c, cs', rfl⟩ := List.exists_cons_of_ne_nil more
        have positive := (measure_solid c cs').2
        obtain ⟨read, whole, -⟩ := passes.behind
        have total := congrArg List.length whole
        simp only [List.length_append, List.length_cons, List.length_drop] at total ⊢
        omega
      have tail := ih (l.start.after (text.take (measure text).2)) _ shorter
      rw [run, ← start]
      refine ⟨fun l' hl' => ?_, fun q rest walk hrest => ?_⟩
      · rcases List.mem_cons.mp hl' with rfl | later
        · exact ⟨text, passes, settled, begins⟩
        · obtain ⟨rest, walk, rest'⟩ := tail.1 l' later
          rw [← length] at walk
          exact ⟨rest, passes.trans (.on more walk), rest'⟩
      · cases next q rest hrest walk with
        | here => exact ⟨l, List.mem_cons_self, rfl, begins⟩
        | on _ walk =>
          rw [length] at walk
          obtain ⟨l', later, found⟩ := tail.2 q rest walk hrest
          exact ⟨l', List.mem_cons_of_mem l later, found⟩

theorem scan_eq_scanFrom (source : String) : scan source =
    scanFrom ((beginning source).2.length + 1) (beginning source).1 (beginning source).2 := by
  unfold scan beginning
  generalize source.toList = cs
  cases cs with
  | nil => rfl
  | cons c cs =>
    by_cases order : c = '\ufeff'
    · subst order
      rfl
    · simp [order]

theorem scan_spec (source : String) :
    (∀ l ∈ scan source,
      ∃ rest, Passes (beginning source) (l.start, rest) ∧ Settled rest ∧ l.Begins rest) ∧
    ∀ q rest, Passes (beginning source) (q, rest) → Settled rest →
      ∃ l ∈ scan source, l.start = q ∧ l.Begins rest := by
  rw [scan_eq_scanFrom]
  exact scanFrom_spec _ _ _ (Nat.lt_succ_self _)

end Go.Lexeme

end SwitchLint
