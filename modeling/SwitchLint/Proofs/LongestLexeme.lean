import SwitchLint.Proofs.LongestMatch

/-!
How far a lexeme goes. What the scanner measures at the beginning of a text is the longest lexeme that
begins there. A lexeme that ends inside a part of the text is what begins that part, a lexeme by itself
goes at least as far when more text follows, and a slash behind it always ends it.
-/

namespace SwitchLint.Go.Lexeme

open Text

variable {x y : List Char} {n : Nat}

theorem takeWhile_append_of_lt {α : Type} {p : α → Bool} {x y : List α}
    (ends : ((x ++ y).takeWhile p).length < x.length) (y' : List α) :
    (x ++ y').takeWhile p = (x ++ y).takeWhile p := by
  rw [List.takeWhile_append] at ends ⊢
  split at ends
  · rename_i all
    rw [List.length_append] at ends
    omega
  · rename_i stops
    rw [List.takeWhile_append, if_neg stops, if_neg stops]

theorem takeWhile_of_append {α : Type} {p : α → Bool} {x y : List α}
    (ends : ((x ++ y).takeWhile p).length ≤ x.length) : x.takeWhile p = (x ++ y).takeWhile p := by
  rw [List.takeWhile_append] at ends ⊢
  split at ends
  · rename_i all
    rw [List.length_append] at ends
    have nothing : y.takeWhile p = [] := List.length_eq_zero_iff.mp (by omega)
    rw [if_pos all, nothing, List.append_nil]
    exact (List.takeWhile_prefix p).eq_of_length all
  · rename_i stops
    rw [if_neg stops]

theorem takeWhile_append_of_stop {α : Type} {p : α → Bool} {stop : α} (ends : p stop = false)
    (x y : List α) : (x ++ stop :: y).takeWhile p = x.takeWhile p := by
  have stops : ¬ p stop = true := by simp [ends]
  rw [List.takeWhile_append, List.takeWhile_cons_of_neg stops, List.append_nil]
  split
  · rename_i all
    exact ((List.takeWhile_prefix p).eq_of_length all).symm
  · rfl

theorem takeWhile_le_append {α : Type} {p : α → Bool} (x y : List α) :
    (x.takeWhile p).length ≤ ((x ++ y).takeWhile p).length := by
  rw [List.takeWhile_append]
  split
  · rename_i all
    rw [List.length_append, all]
    exact Nat.le_add_right _ _
  · exact Nat.le_refl _

/-! ### Comments -/

/-- The mark that closes a comment stands in the text. -/
def Closes (cs : List Char) : Prop := ['*', '/'] <:+: cs

instance (cs : List Char) : Decidable (Closes cs) := inferInstanceAs (Decidable (_ <:+: _))

theorem closes_cons_iff {c : Char} {cs : List Char} :
    Closes (c :: cs) ↔ (c = '*' ∧ ∃ after, cs = '/' :: after) ∨ Closes cs := by
  rw [Closes, Closes, List.infix_cons_iff, List.cons_prefix_cons]
  refine or_congr_left (and_congr eq_comm ?_)
  cases cs with
  | nil => simp
  | cons d cs => simp [List.cons_prefix_cons, eq_comm]

theorem blockCommentRest_eq_none {cs : List Char} : blockCommentRest cs = none ↔ ¬ Closes cs := by
  fun_induction blockCommentRest cs with
  | case1 after => simp [closes_cons_iff]
  | case2 c cs other ih =>
    rw [Option.map_eq_none_iff, ih, closes_cons_iff, not_or, and_iff_right]
    rintro ⟨rfl, after, rfl⟩
    exact other after rfl rfl
  | case3 => simp [Closes]

/-- The rest of a comment goes through the first mark that closes it. -/
theorem blockCommentRest_eq_some {cs : List Char} : blockCommentRest cs = some n ↔
    ∃ inner after, cs = inner ++ '*' :: '/' :: after ∧ n = inner.length + 2 ∧ ¬ Closes inner := by
  fun_induction blockCommentRest cs generalizing n with
  | case1 after =>
    constructor
    · rintro ⟨⟩
      exact ⟨[], after, rfl, rfl, by decide⟩
    · rintro ⟨inner, after', whole, rfl, opens⟩
      rcases inner with _ | ⟨c, _ | ⟨d, inner⟩⟩
      · rfl
      · simp at whole
      · simp only [List.cons_append, List.cons.injEq] at whole
        obtain ⟨rfl, rfl, -⟩ := whole
        exact absurd (closes_cons_iff.mpr (.inl ⟨rfl, inner, rfl⟩)) opens
  | case2 c cs other ih =>
    rw [Option.map_eq_some_iff]
    constructor
    · rintro ⟨m, found, rfl⟩
      obtain ⟨inner, after, rfl, rfl, opens⟩ := ih.mp found
      refine ⟨c :: inner, after, rfl, rfl, fun closes => ?_⟩
      rcases closes_cons_iff.mp closes with ⟨rfl, more, rfl⟩ | closes
      · exact other _ rfl rfl
      · exact opens closes
    · rintro ⟨inner, after, whole, rfl, opens⟩
      cases inner with
      | nil =>
        obtain ⟨rfl, rfl⟩ := List.cons.inj whole
        exact absurd rfl (other after rfl)
      | cons d inner =>
        obtain ⟨rfl, rfl⟩ := List.cons.inj whole
        refine ⟨inner.length + 2, ih.mpr ⟨inner, after, rfl, rfl, fun closes => ?_⟩, rfl⟩
        exact opens (closes_cons_iff.mpr (.inr closes))
  | case3 => simp

theorem blockCommentRest_append (found : blockCommentRest (x ++ y) = some n) (inside : n ≤ x.length)
    (y' : List Char) : blockCommentRest (x ++ y') = some n := by
  obtain ⟨inner, after, whole, rfl, opens⟩ := blockCommentRest_eq_some.mp found
  have begins : inner ++ ['*', '/'] <+: x := by
    refine List.prefix_of_prefix_length_le ⟨after, ?_⟩ (List.prefix_append x y) (by simpa using inside)
    rw [whole, List.append_assoc]
    rfl
  obtain ⟨rest, rfl⟩ := begins
  exact blockCommentRest_eq_some.mpr ⟨inner, rest ++ y', by simp, rfl, opens⟩

theorem comment_eq_none {cs : List Char} : comment cs = none ↔
    (∀ rest, cs ≠ '/' :: '/' :: rest) ∧ ∀ rest, cs = '/' :: '*' :: rest → ¬ Closes rest := by
  unfold comment
  split
  · simp
  · simp [blockCommentRest_eq_none]
  · rename_i noLine noBlock
    exact iff_of_true rfl ⟨noLine, fun rest same => absurd same (noBlock rest)⟩

theorem comment_append (found : comment (x ++ y) = some n) (inside : n < x.length) (y' : List Char) :
    comment (x ++ y') = some n := by
  rcases x with _ | ⟨c, _ | ⟨d, x⟩⟩
  · cases inside
  · have positive := comment_length found
    exact absurd inside (Nat.not_lt.mpr positive)
  · simp only [List.cons_append, List.length_cons] at found inside ⊢
    unfold comment at found
    split at found
    · rename_i whole
      obtain ⟨rfl, rfl, rfl⟩ : c = '/' ∧ d = '/' ∧ x ++ y = _ := by simpa using whole
      rw [Option.some.injEq] at found
      rw [comment, takeWhile_append_of_lt (y := y) (by omega), found]
    · rename_i whole
      obtain ⟨rfl, rfl, rfl⟩ : c = '/' ∧ d = '*' ∧ x ++ y = _ := by simpa using whole
      obtain ⟨m, rest, rfl⟩ := Option.map_eq_some_iff.mp found
      rw [comment, blockCommentRest_append rest (by omega)]
      rfl
    · cases found

/-- Where no comment begins a text, none begins a part of it. -/
theorem no_comment_of_append (nothing : comment (x ++ y) = none) : comment x = none := by
  rw [comment_eq_none] at nothing ⊢
  obtain ⟨noLine, noBlock⟩ := nothing
  refine ⟨fun rest same => noLine (rest ++ y) (by rw [same]; rfl), fun rest same closes => ?_⟩
  exact noBlock (rest ++ y) (by rw [same]; rfl) (closes.trans (List.prefix_append _ _).isInfix)

/-! ### Strings -/

theorem escape_inner (c : Char) : (escapePattern.step c).avoids '\x22' = true := by
  refine Pattern.avoids_orElse ?_ (Pattern.avoids_step c (by decide))
  rw [Pattern.step]
  split <;> rfl

/-- The rest of an interpreted string, through its closing mark, is `n` characters long. -/
inductive Quoted : List Char → Nat → Prop
  | close (cs) : Quoted ('\x22' :: cs) 1
  | escape {cs k m} : escapePattern.longest cs = some k → Quoted (cs.drop k) m →
      Quoted ('\\' :: cs) (1 + k + m)
  | feed {cs gap k m} : (('\n' :: cs).takeWhile isSpace).length = gap →
      comment (('\n' :: cs).drop gap) = some k → Quoted (('\n' :: cs).drop (gap + k)) m →
      Quoted ('\n' :: cs) (gap + k + m)
  | plain {c cs m} : c ≠ '\x22' → c ≠ '\\' → c ≠ '\n' → Quoted cs m → Quoted (c :: cs) (m + 1)

theorem quoted_of_interpretedRest {fuel : Nat} {cs : List Char}
    (found : interpretedRest fuel cs = some n) : Quoted cs n := by
  fun_induction interpretedRest fuel cs generalizing n with
  | case1 => cases found
  | case2 => cases found
  | case3 fuel rest =>
    obtain rfl := Option.some.inj found
    exact .close rest
  | case4 fuel cs ih =>
    simp only [Option.bind_eq_bind, Option.bind_eq_some_iff, Option.pure_def, Option.some.injEq] at found
    obtain ⟨k, escape, m, rest, rfl⟩ := found
    exact .escape escape (ih k rest)
  | case5 fuel cs gap =>
    rename_i ih
    simp only [Option.bind_eq_bind, Option.bind_eq_some_iff, Option.pure_def, Option.some.injEq] at found
    obtain ⟨k, skipped, m, rest, rfl⟩ := found
    exact .feed rfl skipped (ih k rest)
  | case6 fuel c cs quote slash feed ih =>
    obtain ⟨m, rest, rfl⟩ := Option.map_eq_some_iff.mp found
    exact .plain quote slash feed (ih rest)

theorem Quoted.positive {cs : List Char} (quoted : Quoted cs n) : 0 < n := by
  cases quoted with
  | close => exact Nat.one_pos
  | escape => omega
  | feed _ skipped => exact Nat.add_pos_left (Nat.add_pos_right _ (comment_length skipped)) _
  | plain => exact Nat.succ_pos _

theorem Quoted.closed {cs : List Char} (quoted : Quoted cs n) : cs[n - 1]? = some '\x22' := by
  induction quoted with
  | close => rfl
  | @escape cs k m _ rest ih =>
    have positive := rest.positive
    rw [List.getElem?_drop] at ih
    rw [show 1 + k + m - 1 = (k + (m - 1)) + 1 by omega, List.getElem?_cons_succ]
    exact ih
  | @feed cs gap k m _ _ rest ih =>
    have positive := rest.positive
    rw [List.getElem?_drop] at ih
    rw [show gap + k + m - 1 = gap + k + (m - 1) by omega]
    exact ih
  | @plain c cs m _ _ _ rest ih =>
    have positive := rest.positive
    rw [show m + 1 - 1 = (m - 1) + 1 by omega, List.getElem?_cons_succ]
    exact ih

theorem interpretedRest_of_quoted {fuel : Nat} {cs : List Char} (quoted : Quoted cs n)
    (enough : n ≤ fuel) : interpretedRest fuel cs = some n := by
  have positive := quoted.positive
  induction quoted generalizing fuel with
  | close =>
    obtain ⟨fuel, rfl⟩ := Nat.exists_eq_add_of_lt (positive.trans_le enough)
    rfl
  | @escape cs k m escape rest ih =>
    obtain ⟨fuel, rfl⟩ := Nat.exists_eq_add_of_lt (positive.trans_le enough)
    have later : interpretedRest fuel _ = some m := ih (by omega) rest.positive
    simp [interpretedRest, escape, later]
  | @feed cs gap k m spaces skipped rest ih =>
    have passed := comment_length skipped
    obtain ⟨fuel, rfl⟩ := Nat.exists_eq_add_of_lt (positive.trans_le enough)
    have later : interpretedRest fuel _ = some m := ih (by omega) rest.positive
    simp [interpretedRest, spaces, skipped, later]
  | @plain c cs m quote slash feed rest ih =>
    obtain ⟨fuel, rfl⟩ := Nat.exists_eq_add_of_lt (positive.trans_le enough)
    have later : interpretedRest fuel _ = some m := ih (by omega) rest.positive
    simp [interpretedRest, later]

/-- The rest of a string ends by itself, so what stands behind it plays no part. -/
theorem Quoted.append (quoted : Quoted (x ++ y) n) (inside : n ≤ x.length) (y' : List Char) :
    Quoted (x ++ y') n := by
  generalize whole : x ++ y = cs at quoted
  induction quoted generalizing x with
  | close cs =>
    cases x with
    | nil => cases inside
    | cons c x =>
      simp only [List.cons_append, List.cons.injEq] at whole
      obtain ⟨rfl, -⟩ := whole
      exact .close _
  | @escape cs k m escape rest ih =>
    have positive := rest.positive
    cases x with
    | nil =>
      rw [List.length_nil] at inside
      omega
    | cons c x =>
      simp only [List.cons_append, List.cons.injEq] at whole
      obtain ⟨rfl, rfl⟩ := whole
      rw [List.length_cons] at inside
      have behind (z : List Char) : (x ++ z).drop k = x.drop k ++ z :=
        List.drop_append_of_le_length (by omega)
      rw [behind] at ih rest
      have room : m ≤ (x.drop k).length := by
        rw [List.length_drop]
        omega
      -- The mark that closes the string stands behind the escape, so the escape stops before it.
      have stop : '\x22' ∈ x.drop k := by
        have closed := rest.closed
        rw [List.getElem?_append_left (by omega)] at closed
        exact List.mem_of_getElem? closed
      have first : escapePattern.longest x = some k := by
        rw [← escape]
        refine Pattern.longest_of_append fun k' found => ?_
        obtain rfl := Option.some.inj (escape.symm.trans found)
        omega
      rw [List.cons_append]
      refine .escape (Pattern.longest_append_of_stop escape_inner first ?_ stop) ?_
      · exact longest_positive (by decide) first
      · rw [behind]
        exact ih room rfl
  | @feed cs gap k m spaces skipped rest ih =>
    have passed := comment_length skipped
    have positive := rest.positive
    cases x with
    | nil =>
      rw [List.length_nil] at inside
      omega
    | cons c x =>
      simp only [List.cons_append, List.cons.injEq] at whole
      obtain ⟨rfl, rfl⟩ := whole
      have behind (z : List Char) {i : Nat} (fits : i ≤ gap + k) :
          ('\n' :: (x ++ z)).drop i = ('\n' :: x).drop i ++ z := by
        have within : i ≤ ('\n' :: x).length := by omega
        exact List.drop_append_of_le_length within
      rw [behind y (by omega)] at ih rest skipped
      have left (i : Nat) : (('\n' :: x).drop i).length = ('\n' :: x).length - i := List.length_drop
      have same := takeWhile_append_of_lt (x := '\n' :: x) (y := y) (p := isSpace)
        (by rw [List.cons_append, spaces]; omega) y'
      rw [List.cons_append] at same ⊢
      refine .feed (by rw [same]; exact spaces) ?_ ?_
      · rw [behind y' (by omega)]
        exact comment_append skipped (by rw [left]; omega) y'
      · rw [behind y' (by omega)]
        exact ih (by rw [left]; omega) rfl
  | @plain c cs m quote slash feed rest ih =>
    cases x with
    | nil => simp at inside
    | cons d x =>
      simp only [List.cons_append, List.cons.injEq] at whole
      obtain ⟨rfl, rfl⟩ := whole
      exact .plain quote slash feed (ih (Nat.le_of_succ_le_succ inside) rfl)

theorem Quoted.bounded {cs : List Char} (quoted : Quoted cs n) : n ≤ cs.length := by
  have closed := (List.getElem?_eq_some_iff.mp quoted.closed).1
  have positive := quoted.positive
  omega

theorem interpretedRest_iff {cs : List Char} :
    interpretedRest (cs.length + 1) cs = some n ↔ Quoted cs n :=
  ⟨quoted_of_interpretedRest,
    fun quoted => interpretedRest_of_quoted quoted (Nat.le_succ_of_le quoted.bounded)⟩

theorem rawRest_bounded (found : rawRest x = some n) : n ≤ x.length := by
  unfold rawRest at found
  dsimp only at found
  split at found
  · obtain rfl := Option.some.inj found
    assumption
  · cases found

theorem rawRest_append (found : rawRest (x ++ y) = some n) (inside : n ≤ x.length) (y' : List Char) :
    rawRest (x ++ y') = some n := by
  unfold rawRest at found ⊢
  dsimp only at found ⊢
  split at found
  · obtain rfl := Option.some.inj found
    rw [takeWhile_append_of_lt inside y', if_pos]
    rw [List.length_append]
    omega
  · cases found

/-- Escapes in runes, each with the characters that it can begin with. -/
def runeEscapes : List (List Char × Pattern) :=
  [(['x'], .seq (.exactly "x") (.times 2 hexDigit)), ("01234567".toList, .times 3 octalDigit),
    (['u'], .seq (.exactly "u") (.times 4 hexDigit)), (['U'], .seq (.exactly "U") (.times 8 hexDigit)),
    ("abfnrtv\\'\"".toList, .oneOf "abfnrtv\\'\"")]

theorem exactly_begins (s : String) (c : Char) (single : s.toList = [c]) :
    Pattern.Begins (.exactly s) [c] := by
  rw [Pattern.exactly, single]
  exact Pattern.begins_seq (Pattern.begins_one fun d => by simp) rfl

theorem runeEscapes_closed : Pattern.Closed (.anyOf (runeEscapes.map Prod.snd)) := by
  have oneOf_begins (s : String) : Pattern.Begins (.oneOf s) s.toList :=
    Pattern.begins_one fun c => by simp
  have closed_oneOf (s : String) : Pattern.Closed (.oneOf s) := Pattern.closed_one
  have numbered (s : String) (n : Nat) (digit : String) :
      Pattern.Closed (.seq (.exactly s) (.times n (.oneOf digit))) :=
    (Pattern.closed_exactly s).seq (Pattern.closed_times n (closed_oneOf digit))
  refine (Pattern.closed_anyOf ?_ ?_).1
  · simp only [runeEscapes, List.map_cons, List.map_nil, List.forall_mem_cons]
    exact ⟨⟨numbered _ 2 _, rfl⟩, ⟨Pattern.closed_times 3 (closed_oneOf _), rfl⟩, ⟨numbered _ 4 _, rfl⟩,
      ⟨numbered _ 8 _, rfl⟩, ⟨closed_oneOf _, rfl⟩, by simp⟩
  · have heads : ∀ e ∈ runeEscapes, Pattern.Begins e.2 e.1 := by
      simp only [runeEscapes, List.forall_mem_cons]
      exact ⟨Pattern.begins_seq (exactly_begins _ _ rfl) rfl, Pattern.begins_seq (oneOf_begins _) rfl,
        Pattern.begins_seq (exactly_begins _ _ rfl) rfl, Pattern.begins_seq (exactly_begins _ _ rfl) rfl,
        oneOf_begins _, by simp⟩
    have disjoint : runeEscapes.Pairwise fun e f => e.1.all (!f.1.contains ·) = true := by decide
    rw [List.pairwise_map]
    exact disjoint.imp_of_mem fun he hf apart =>
      Pattern.apart_of_begins (heads _ he) (heads _ hf) fun c hc => by
        simpa using List.all_eq_true.mp apart c hc

theorem rune_closed : Pattern.Closed runePattern := by
  refine Pattern.closed_chain ?_
  simp only [List.forall_mem_cons]
  refine ⟨Pattern.closed_exactly _, ?_, Pattern.closed_exactly _, by simp⟩
  refine Pattern.closed_one.alt ((Pattern.closed_exactly _).seq runeEscapes_closed) ?_ rfl rfl
  intro c
  by_cases slash : c = '\\'
  · refine .inl ?_
    rw [slash]
    rfl
  · exact .inr (Pattern.begins_seq (exactly_begins "\\" '\\' rfl) rfl c (by simpa using slash))

/-! ### Numbers and marks -/

/-- The patterns of numbers, each with the shape of what it matches. -/
def numbers : List (Shape × Pattern) :=
  [(.int, intPattern), (.float, floatPattern), (.imaginary, imaginaryPattern)]

/-- The longer one of the number so far and a candidate. -/
def longer (best : Option (Shape × Nat)) (c : Shape × Option Nat) : Option (Shape × Nat) :=
  match best, c.2 with
  | none, some n => some (c.1, n)
  | some b, some n => if b.2 < n then some (c.1, n) else some b
  | best, none => best

theorem le_longer {best : Option (Shape × Nat)} {c : Shape × Option Nat} {k : Nat}
    (given : (∃ b, best = some b ∧ k ≤ b.2) ∨ c.2 = some k) :
    ∃ f, longer best c = some f ∧ k ≤ f.2 := by
  obtain ⟨s, length⟩ := c
  rcases best with _ | b <;> rcases length with _ | n
  · simp at given
  · obtain rfl : n = k := by simpa using given
    exact ⟨_, rfl, Nat.le_refl _⟩
  · exact ⟨b, rfl, by simpa using given⟩
  · have bound : k ≤ b.2 ∨ n = k := by simpa using given
    simp only [longer]
    split
    · exact ⟨_, rfl, by omega⟩
    · exact ⟨_, rfl, by omega⟩

/-- A number is the longest match of all patterns of numbers. -/
theorem longest_le_number {r : Shape × Pattern} (member : r ∈ numbers) {cs : List Char} {k : Nat}
    (longest : r.2.longest cs = some k) : ∃ found, number cs = some found ∧ k ≤ found.2 := by
  have kept (candidates : List (Shape × Option Nat)) (best : Option (Shape × Nat))
      (given : (∃ b, best = some b ∧ k ≤ b.2) ∨ ∃ c ∈ candidates, c.2 = some k) :
      ∃ f, candidates.foldl longer best = some f ∧ k ≤ f.2 := by
    induction candidates generalizing best with
    | nil => simpa using given
    | cons c candidates ih =>
      refine ih (longer best c) ?_
      rcases given with found | ⟨d, hd, length⟩
      · exact .inl (le_longer (.inl found))
      · rcases List.mem_cons.mp hd with rfl | later
        · exact .inl (le_longer (.inr length))
        · exact .inr ⟨d, later, length⟩
  exact kept (numbers.map fun r => (r.1, r.2.longest cs)) none
    (.inr ⟨_, List.mem_map_of_mem member, longest⟩)

theorem number_shape {cs : List Char} {found : Shape × Nat} (number : number cs = some found) :
    found.1 ∈ [Shape.int, .float, .imaginary] := by
  have shapes : ∀ r ∈ numbers, r.1 ∈ [Shape.int, .float, .imaginary] := by decide
  obtain ⟨r, member, -⟩ := number_eq_some number
  exact shapes _ member

theorem number_flat {cs : List Char} {found : Shape × Nat} (number : number cs = some found) :
    found.1.isFlat = true := by
  have flat : ∀ s ∈ [Shape.int, .float, .imaginary], s.isFlat = true := by decide
  exact flat _ (number_shape number)

theorem number_congr (same : ∀ r ∈ numbers, r.2.longest x = r.2.longest y) : number x = number y := by
  simp only [numbers, List.forall_mem_cons] at same
  obtain ⟨int, float, imaginary, -⟩ := same
  rw [number, number, int, float, imaginary]

theorem number_of_append (ends : ∀ found, number (x ++ y) = some found → found.2 ≤ x.length) :
    number x = number (x ++ y) := by
  refine number_congr fun r hr => Pattern.longest_of_append fun k longest => ?_
  obtain ⟨found, number, bound⟩ := longest_le_number hr longest
  exact bound.trans (ends found number)

theorem number_append_of_avoids {c : Char} (avoids : ∀ r ∈ numbers, r.2.avoids c = true)
    (x y : List Char) : number (x ++ c :: y) = number x :=
  number_congr fun r hr => Pattern.longest_append_of_avoids (avoids r hr) x y

theorem find_mark {cs : List Char} : marks.find? (fun m => m.toList.isPrefixOf cs) = none ↔
    ∀ m ∈ marks, ¬ m.toList <+: cs := by
  simp [List.isPrefixOf_iff_prefix]

theorem find_mark_eq_some {cs : List Char} {m : String} :
    marks.find? (fun m => m.toList.isPrefixOf cs) = some m ↔ m.toList <+: cs ∧
      ∃ before behind, marks = before ++ m :: behind ∧ ∀ a ∈ before, ¬ a.toList <+: cs := by
  simp only [List.find?_eq_some_iff_append, List.isPrefixOf_iff_prefix, Bool.not_eq_true',
    ← Bool.not_eq_true, exists_and_right]

theorem mark_of_append (ends : ∀ n, mark (x ++ y) = some n → n ≤ x.length) :
    mark x = mark (x ++ y) := by
  unfold mark at ends ⊢
  refine congrArg (Option.map _) ?_
  have fewer (m : String) (other : ¬ m.toList <+: x ++ y) : ¬ m.toList <+: x :=
    fun begins => other (begins.trans (List.prefix_append x y))
  cases found : marks.find? fun m => m.toList.isPrefixOf (x ++ y) with
  | none => exact find_mark.mpr fun m hm => fewer m (find_mark.mp found m hm)
  | some m =>
    rw [found] at ends
    have short : m.toList.length ≤ x.length := ends _ rfl
    obtain ⟨begins, before, behind, parts, others⟩ := find_mark_eq_some.mp found
    refine find_mark_eq_some.mpr ⟨?_, before, behind, parts, fun o ho => fewer o (others o ho)⟩
    exact List.prefix_of_prefix_length_le begins (List.prefix_append x y) short

theorem mark_append_slash (filled : x ≠ []) (y : List Char) : mark (x ++ '/' :: y) = mark x := by
  have inner : ∀ m ∈ marks, '/' ∉ m.toList.tail := by decide
  refine (mark_of_append fun n found => Nat.le_of_not_lt fun beyond => ?_).symm
  obtain ⟨m, member, text⟩ := mark_eq_some found
  obtain ⟨c, x, rfl⟩ := List.exists_cons_of_ne_nil filled
  refine inner m member ?_
  rw [← text, List.take_append, List.take_of_length_le beyond.le, List.cons_append, List.tail_cons]
  obtain ⟨k, more⟩ := Nat.exists_eq_add_of_lt beyond
  rw [show n - (c :: x).length = k + 1 by omega, List.take_succ_cons]
  exact List.mem_append_right _ List.mem_cons_self

/-- A mark is the beginning of the longest mark where it begins a text. -/
theorem length_le_mark {m : String} (member : m ∈ marks) (y : List Char) :
    ∃ n, mark (m.toList ++ y) = some n ∧ m.toList.length ≤ n := by
  have order : marks.Pairwise fun a b => ¬ a.toList <+: b.toList := by decide
  unfold mark
  cases found : marks.find? fun a => a.toList.isPrefixOf (m.toList ++ y) with
  | none => exact absurd (List.prefix_append _ _) (find_mark.mp found m member)
  | some a =>
    obtain ⟨begins, before, behind, parts, others⟩ := find_mark_eq_some.mp found
    refine ⟨_, rfl, Nat.le_of_not_lt fun shorter => ?_⟩
    have inside : a.toList <+: m.toList :=
      List.prefix_of_prefix_length_le begins (List.prefix_append _ _) shorter.le
    rw [parts] at member order
    rcases List.mem_append.mp member with earlier | here
    · exact others m earlier (List.prefix_append _ _)
    · rcases List.mem_cons.mp here with rfl | later
      · exact absurd shorter (Nat.lt_irrefl _)
      · have apart := (List.pairwise_append.mp order).2.1
        exact (List.pairwise_cons.mp apart).1 m later inside

/-! ### Lexemes -/

/-- No word, string or rune begins with the character. -/
structure Bare (c : Char) : Prop where
  word : isIdentifierStart c = false
  others : c ∉ ['\x00', '\x60', '\x22', '\x27']

/-- The scanner knows the lexeme at the beginning of the text. -/
inductive Knows : List Char → Shape × Nat → Prop
  | nul {cs} : Knows ('\x00' :: cs) (.nul, 1)
  | raw {cs n} : rawRest cs = some n → Knows ('\x60' :: cs) (.raw, n + 1)
  | interpreted {cs n} : Quoted cs n → Knows ('\x22' :: cs) (.interpreted, n + 1)
  | rune {cs n} : runePattern.longest ('\x27' :: cs) = some n → Knows ('\x27' :: cs) (.rune, n)
  | word {c cs} : isIdentifierStart c = true →
      Knows (c :: cs) (.word, 1 + (cs.takeWhile isIdentifierPart).length)
  | number {c cs found} : Bare c → number (c :: cs) = some found → Knows (c :: cs) found
  | mark {c cs n} : Bare c → number (c :: cs) = none → mark (c :: cs) = some n →
      Knows (c :: cs) (.mark, n)

theorem measure_of_knows {cs : List Char} {found : Shape × Nat} (knows : Knows cs found) :
    measure cs = found := by
  cases knows with
  | nul => rfl
  | raw rest => simp [measure, rest]
  | interpreted quoted => simp [measure, interpretedRest_iff.mpr quoted]
  | rune longest => simp [measure, longest]
  | @word c cs start =>
    have others : c ∉ ['\x00', '\x60', '\x22', '\x27'] := by
      intro member
      simp only [List.mem_cons, List.not_mem_nil, or_false] at member
      rcases member with rfl | rfl | rfl | rfl <;> cases start
    simp only [List.mem_cons, List.not_mem_nil, or_false, not_or] at others
    simp [measure, others, start]
  | @number c cs found bare number =>
    obtain ⟨start, others⟩ := bare
    simp only [List.mem_cons, List.not_mem_nil, or_false, not_or] at others
    simp [measure, others, start, number]
  | @mark c cs n bare none mark =>
    obtain ⟨start, others⟩ := bare
    simp only [List.mem_cons, List.not_mem_nil, or_false, not_or] at others
    simp [measure, others, start, none, mark]

theorem Knows.known {cs : List Char} {found : Shape × Nat} (knows : Knows cs found) :
    found.1 ≠ .unknown := by
  cases knows with
  | number _ number =>
    intro unknown
    have shape := number_shape number
    simp [unknown] at shape
  | _ => nofun

theorem knows_of_measure {cs : List Char} (known : (measure cs).1 ≠ .unknown) (filled : cs ≠ []) :
    Knows cs (measure cs) := by
  have otherwise {found : Option (Shape × Nat)} {n : Nat} (knows : ∀ f, found = some f → Knows cs f)
      (known : (found.getD (.unknown, n)).1 ≠ .unknown) : Knows cs (found.getD (.unknown, n)) := by
    cases found with
    | none => exact absurd rfl known
    | some f => exact knows f rfl
  revert known
  unfold measure
  split
  · exact absurd rfl filled
  · exact fun _ => .nul
  · rename_i c cs nul
    intro known
    refine otherwise (fun f hf => ?_) known
    split at hf
    · rename_i quote
      obtain ⟨n, rest, rfl⟩ := Option.map_eq_some_iff.mp hf
      exact quote ▸ .raw rest
    split at hf
    · rename_i quote
      obtain ⟨n, rest, rfl⟩ := Option.map_eq_some_iff.mp hf
      exact quote ▸ .interpreted (interpretedRest_iff.mp rest)
    split at hf
    · rename_i quote
      obtain ⟨n, longest, rfl⟩ := Option.map_eq_some_iff.mp hf
      subst quote
      exact .rune longest
    split at hf
    · rename_i start
      obtain rfl := Option.some.inj hf
      exact .word start
    · rename_i raw interpreted rune start
      have bare : Bare c := by
        refine ⟨by simpa using start, ?_⟩
        simp only [List.mem_cons, List.not_mem_nil, or_false, not_or]
        exact ⟨nul, raw, interpreted, rune⟩
      rcases Option.or_eq_some_iff.mp hf with number | ⟨none, found⟩
      · exact .number bare number
      · obtain ⟨n, mark, rfl⟩ := Option.map_eq_some_iff.mp found
        exact .mark bare none mark

theorem Knows.positive {found : Shape × Nat} (knows : Knows x found) : 0 < found.2 := by
  rw [← measure_of_knows knows]
  cases x with
  | nil => cases knows
  | cons c x => exact (measure_solid c x).2

theorem Knows.bounded {found : Shape × Nat} (knows : Knows x found) : found.2 ≤ x.length := by
  cases knows with
  | nul => exact Nat.succ_pos _
  | raw rest => exact Nat.succ_le_succ (rawRest_bounded rest)
  | interpreted quoted => exact Nat.succ_le_succ quoted.bounded
  | rune longest => exact (Pattern.longest_eq_some.mp longest).bounded
  | @word c cs start =>
    rw [Nat.add_comm]
    exact Nat.succ_le_succ (List.takeWhile_prefix _).length_le
  | number bare number =>
    obtain ⟨r, -, longest⟩ := number_eq_some number
    exact (Pattern.longest_eq_some.mp longest).bounded
  | mark bare unnumbered mark =>
    obtain ⟨m, chosen, rfl⟩ := Option.map_eq_some_iff.mp mark
    exact (find_mark_eq_some.mp chosen).1.length_le

/-- A lexeme that ends inside the first part of a text is what begins that part. -/
theorem Knows.of_append {found : Shape × Nat} (knows : Knows (x ++ y) found)
    (inside : found.2 ≤ x.length) : Knows x found := by
  have positive := knows.positive
  cases x with
  | nil => exact absurd inside (Nat.not_le.mpr positive)
  | cons c x =>
    rw [List.cons_append] at knows
    cases knows with
    | nul => exact .nul
    | raw rest =>
      have whole := rawRest_append rest (Nat.le_of_succ_le_succ inside) []
      rw [List.append_nil] at whole
      exact .raw whole
    | interpreted quoted =>
      have whole := quoted.append (Nat.le_of_succ_le_succ inside) []
      rw [List.append_nil] at whole
      exact .interpreted whole
    | rune longest =>
      rw [← List.cons_append] at longest
      refine .rune ((Pattern.longest_of_append fun n found => ?_).trans longest)
      obtain rfl := Option.some.inj (longest.symm.trans found)
      exact inside
    | word start =>
      have same := takeWhile_of_append (p := isIdentifierPart) (x := x) (y := y) (by
        rw [Nat.add_comm] at inside
        exact Nat.le_of_succ_le_succ inside)
      rw [← same]
      exact .word start
    | number bare number =>
      rw [← List.cons_append] at number
      refine .number bare ((number_of_append fun found' other => ?_).trans number)
      obtain rfl := Option.some.inj (number.symm.trans other)
      exact inside
    | mark bare none mark =>
      rw [← List.cons_append] at none mark
      refine .mark bare ((number_of_append fun found' other => ?_).trans none)
        ((mark_of_append fun n found => ?_).trans mark)
      · cases none.symm.trans other
      · obtain rfl := Option.some.inj (mark.symm.trans found)
        exact inside

/-- A lexeme between quotes ends by itself. -/
theorem Knows.append_quoted {found : Shape × Nat} (knows : Knows x found)
    (looks : found.1.isFlat = false) (y : List Char) : Knows (x ++ y) found := by
  cases knows with
  | raw rest => exact .raw (rawRest_append (y := []) (by rwa [List.append_nil]) (rawRest_bounded rest) y)
  | interpreted quoted =>
    exact .interpreted (Quoted.append (y := []) (by rwa [List.append_nil]) quoted.bounded y)
  | rune longest => exact .rune (Pattern.longest_append_of_closed rune_closed longest y)
  | number _ number =>
    rw [number_flat number] at looks
    cases looks
  | _ => cases looks

/-- A slash ends every lexeme that begins before it and is not quoted. -/
theorem Knows.append_slash {found : Shape × Nat} (knows : Knows x found) (y : List Char) :
    Knows (x ++ '/' :: y) found := by
  have avoids : ∀ r ∈ numbers, r.2.avoids '/' = true := by decide
  have numbers := number_append_of_avoids avoids
  cases knows with
  | nul => exact .nul
  | raw rest => exact (Knows.raw rest).append_quoted rfl _
  | interpreted quoted => exact (Knows.interpreted quoted).append_quoted rfl _
  | rune longest => exact (Knows.rune longest).append_quoted rfl _
  | @word c cs start =>
    have same : (cs ++ '/' :: y).takeWhile isIdentifierPart = cs.takeWhile isIdentifierPart :=
      takeWhile_append_of_stop (by decide) cs y
    rw [← same]
    exact .word start
  | number bare number => exact .number bare ((numbers _ _).trans number)
  | mark bare none mark =>
    exact .mark bare ((numbers _ _).trans none) ((mark_append_slash (List.cons_ne_nil _ _) _).trans mark)

/-- A lexeme by itself is the beginning of the lexeme that begins a longer text. -/
theorem Knows.grows {found : Shape × Nat} (knows : Knows x found) (whole : found.2 = x.length)
    (y : List Char) : ∃ found', Knows (x ++ y) found' ∧ found.2 ≤ found'.2 := by
  cases knows with
  | nul => exact ⟨_, .nul, Nat.le_refl _⟩
  | raw rest => exact ⟨_, (Knows.raw rest).append_quoted rfl y, Nat.le_refl _⟩
  | interpreted quoted => exact ⟨_, (Knows.interpreted quoted).append_quoted rfl y, Nat.le_refl _⟩
  | rune longest => exact ⟨_, (Knows.rune longest).append_quoted rfl y, Nat.le_refl _⟩
  | word start => exact ⟨_, .word start, Nat.add_le_add_left (takeWhile_le_append _ y) 1⟩
  | number bare number =>
    obtain ⟨r, member, longest⟩ := number_eq_some number
    rw [whole] at longest
    obtain ⟨n, further, bound⟩ := Pattern.length_le_longest (y := y) longest
    obtain ⟨found', number', bound'⟩ := longest_le_number member further
    exact ⟨found', .number bare number', by rw [whole]; exact bound.trans bound'⟩
  | @mark c cs n bare unnumbered mark =>
    cases further : Lexeme.number (c :: (cs ++ y)) with
    | some found =>
      -- The mark is no number, so the number goes further.
      refine ⟨found, .number bare further, Nat.le_of_not_lt fun shorter => ?_⟩
      have same := number_of_append (x := c :: cs) (y := y) fun found' other => ?_
      · rw [same, List.cons_append, further] at unnumbered
        cases unnumbered
      · obtain rfl := Option.some.inj (further.symm.trans other)
        rw [← whole]
        exact shorter.le
    | none =>
      obtain ⟨m, member, text⟩ := mark_eq_some mark
      dsimp only at whole
      rw [List.take_of_length_le (by rw [whole])] at text
      obtain ⟨n', longest, bound⟩ := length_le_mark member y
      rw [← text] at longest bound
      exact ⟨_, .mark bare further longest, by rw [whole]; exact bound⟩

end SwitchLint.Go.Lexeme
