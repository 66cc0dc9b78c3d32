import SwitchLint.Proofs.LongestLexeme
import SwitchLint.Proofs.PieceByPiece
import SwitchLint.Syntax.Printing

/-!
The tokens of a text that is put together from tokens. They come out as they were put in exactly if no
token runs on into what stands behind it.
-/

namespace SwitchLint.Go.Lexeme

open Text

/-- The tokens of a text: the texts of its lexemes, each as long as it can be. -/
def tokens (text : String) : List String :=
  ((scan text).filter fun l => l.shape ≠ .eof).map (·.text)

/-- The characters are one token by themselves. -/
structure IsToken (cs : List Char) : Prop where
  filled : cs ≠ []
  settled : Settled cs
  known : (measure cs).1 ≠ .unknown
  whole : (measure cs).2 = cs.length

instance (cs : List Char) : Decidable (Settled cs) :=
  decidable_of_iff ((cs.head?.all fun c => !isSpace c) = true ∧ comment cs = none)
    (by simp [Settled, Option.all_eq_true])

instance (cs : List Char) : Decidable (IsToken cs) :=
  decidable_of_iff (cs ≠ [] ∧ Settled cs ∧ (measure cs).1 ≠ .unknown ∧ (measure cs).2 = cs.length)
    ⟨fun ⟨filled, settled, known, whole⟩ => ⟨filled, settled, known, whole⟩,
      fun ⟨filled, settled, known, whole⟩ => ⟨filled, settled, known, whole⟩⟩

/-- With some of what stands behind it the token is another token, or a comment begins with it. -/
def Fuses (token rest : List Char) : Prop :=
  comment (token ++ rest) ≠ none ∨ ∃ more, more ≠ [] ∧ more <+: rest ∧ IsToken (token ++ more)

/-! ### Texts that are put together -/

/-- The text of tokens and blanks. -/
def render : List (Option (List Char)) → List Char
  | [] => []
  | none :: ps => ' ' :: render ps
  | some token :: ps => token ++ render ps

theorem render_append (ps qs : List (Option (List Char))) :
    render (ps ++ qs) = render ps ++ render qs := by
  induction ps with
  | nil => rfl
  | cons p ps ih =>
    cases p with
    | none => exact congrArg (' ' :: ·) ih
    | some token => rw [List.cons_append, render, render, ih, List.append_assoc]

/-- Some token runs on into what stands behind it. -/
def Fused : List (Option (List Char)) → Prop
  | [] => False
  | none :: ps => Fused ps
  | some token :: ps => Fuses token (render ps) ∨ Fused ps

theorem fused_iff {ps : List (Option (List Char))} :
    Fused ps ↔ ∃ before token after, ps = before ++ some token :: after ∧ Fuses token (render after) := by
  induction ps with
  | nil => simp [Fused]
  | cons p ps ih =>
    constructor
    · intro fused
      have later (found : Fused ps) := ih.mp found
      rcases p with _ | token
      · obtain ⟨before, token, after, rfl, fuses⟩ := later fused
        exact ⟨none :: before, token, after, rfl, fuses⟩
      · rcases fused with here | fused
        · exact ⟨[], token, ps, rfl, here⟩
        · obtain ⟨before, token', after, rfl, fuses⟩ := later fused
          exact ⟨some token :: before, token', after, rfl, fuses⟩
    · rintro ⟨before, token, after, whole, fuses⟩
      cases before with
      | nil =>
        obtain ⟨rfl, rfl⟩ := List.cons.inj whole
        exact .inl fuses
      | cons p' before =>
        obtain ⟨rfl, rest⟩ := List.cons.inj whole
        have later : Fused ps := ih.mpr ⟨before, token, after, rest, fuses⟩
        cases p with
        | none => exact later
        | some token' => exact .inr later

/-- The texts of the lexemes, without the end of the text. -/
def words (ls : List Lexeme) : List (List Char) :=
  (ls.filter fun l => l.shape ≠ .eof).map (·.text.toList)

theorem count_append_words {l : Lexeme} (ls : List Lexeme) (c : Char) :
    (words (l :: ls)).flatten.count c ≤ l.text.toList.count c + (words ls).flatten.count c := by
  by_cases solid : l.shape = .eof <;> simp [words, solid]

/-- A scan finds no slash that the text does not have. -/
theorem slashes_of_words {p : Position} {b : Option Break} {cs : List Char} {ls : List Lexeme}
    (scans : Scans p b cs ls) : (words ls).flatten.count '/' ≤ cs.count '/' := by
  induction scans with
  | done => exact Nat.le_refl 0
  | blank _ _ ih => exact ih.trans (List.count_le_count_cons)
  | comment _ _ ih => exact ih.trans ((List.drop_sublist _ _).count_le _)
  | @lexeme p b cs stop ls _ _ _ _ ih =>
    calc (words (_ :: ls)).flatten.count '/'
        ≤ (cs.take (measure cs).2).count '/' + (words ls).flatten.count '/' := by
          simpa using count_append_words (l := ⟨_, String.ofList _, p, stop.offset, b⟩) ls '/'
      _ ≤ (cs.take (measure cs).2).count '/' + (cs.drop (measure cs).2).count '/' :=
          Nat.add_le_add_left ih _
      _ = cs.count '/' := by rw [← List.count_append, List.take_append_drop]

theorem slashes_of_render (ps : List (Option (List Char))) :
    (render ps).count '/' = (ps.filterMap id).flatten.count '/' := by
  induction ps with
  | nil => rfl
  | cons p ps ih =>
    cases p with
    | none => simpa [render] using ih
    | some token => simpa [render] using ih

theorem words_lexeme {l : Lexeme} (solid : l.shape ≠ .eof) (ls : List Lexeme) :
    words (l :: ls) = l.text.toList :: words ls := by
  simp [words, solid]

theorem knows_of_isToken {cs : List Char} (token : IsToken cs) : Knows cs (measure cs) :=
  knows_of_measure token.known token.filled

theorem settled_append {x y : List Char} (settled : Settled x) (filled : x ≠ [])
    (nothing : comment (x ++ y) = none) : Settled (x ++ y) := by
  obtain ⟨c, x, rfl⟩ := List.exists_cons_of_ne_nil filled
  exact ⟨settled.1, nothing⟩

/-- The lexeme that begins a settled text is a token by itself. -/
theorem isToken_of_knows {cs : List Char} {found : Shape × Nat} (knows : Knows cs found)
    (settled : Settled cs) : IsToken (cs.take found.2) := by
  have length : (cs.take found.2).length = found.2 := by
    rw [List.length_take, Nat.min_eq_left knows.bounded]
  have parts : cs.take found.2 ++ cs.drop found.2 = cs := List.take_append_drop _ _
  have filled : cs.take found.2 ≠ [] := by
    refine List.ne_nil_of_length_pos ?_
    rw [length]
    exact knows.positive
  have alone : Knows (cs.take found.2) found := (parts ▸ knows).of_append (Nat.le_of_eq length.symm)
  have nothing : comment (cs.take found.2) = none := no_comment_of_append (parts.symm ▸ settled.2)
  refine ⟨filled, ⟨?_, nothing⟩, ?_, ?_⟩
  · cases cs with
    | nil => cases knows
    | cons c cs =>
      obtain ⟨n, more⟩ := Nat.exists_eq_add_of_lt knows.positive
      rw [more, List.take_succ_cons]
      exact settled.1
  · rw [measure_of_knows alone]
    exact knows.known
  · rw [measure_of_knows alone, length]

theorem knows_append {token : List Char} (alone : IsToken token) (rest : List Char) :
    Knows (token ++ rest) (measure (token ++ rest)) ∧
      token.length ≤ (measure (token ++ rest)).2 := by
  obtain ⟨found, knows, bound⟩ := (knows_of_isToken alone).grows alone.whole rest
  rw [alone.whole] at bound
  rw [measure_of_knows knows]
  exact ⟨knows, bound⟩

/-- A token is measured right in front of something exactly if it does not run on. -/
theorem measure_iff {token rest : List Char} (alone : IsToken token)
    (nothing : comment (token ++ rest) = none) :
    (measure (token ++ rest)).2 = token.length ↔ ¬ Fuses token rest := by
  obtain ⟨knows, bound⟩ := knows_append alone rest
  constructor
  · rintro stops (opens | ⟨more, filled, ⟨rest', rfl⟩, longer⟩)
    · exact opens nothing
    · have further := (knows_append longer rest').2
      rw [List.append_assoc, stops, List.length_append] at further
      have positive := List.length_pos_iff.mpr filled
      omega
  · intro apart
    refine Nat.le_antisymm (Nat.le_of_not_lt fun longer => apart (.inr ?_)) bound
    have token' := isToken_of_knows knows (settled_append alone.settled alone.filled nothing)
    rw [List.take_append, List.take_of_length_le bound] at token'
    refine ⟨rest.take ((measure (token ++ rest)).2 - token.length), fun none => ?_,
      List.take_prefix _ _, token'⟩
    have whole := knows.bounded
    have empty := congrArg List.length none
    rw [List.length_append] at whole
    rw [List.length_take, List.length_nil] at empty
    omega

/-- The tokens that are put into a text come out of it exactly if none of them runs on. -/
theorem words_iff {ps : List (Option (List Char))} (all : ∀ token, some token ∈ ps → IsToken token)
    {p : Position} {b : Option Break} {ls : List Lexeme} (scans : Scans p b (render ps) ls) :
    words ls = ps.filterMap id ↔ ¬ Fused ps := by
  induction ps generalizing p b ls with
  | nil =>
    rw [scans_nil_iff.mp scans]
    exact iff_of_true rfl not_false
  | cons piece ps ih =>
    have others : ∀ token, some token ∈ ps → IsToken token :=
      fun token member => all token (List.mem_cons_of_mem _ member)
    cases piece with
    | none =>
      rw [render, scans_blank_iff rfl] at scans
      exact ih others scans
    | some token =>
      have alone := all token List.mem_cons_self
      have put : (some token :: ps).filterMap id = token :: ps.filterMap id := rfl
      rw [render] at scans
      cases opens : comment (token ++ render ps) with
      | some n =>
        -- The slash that opens the comment is lost, so something is missing from what comes out.
        refine iff_of_false (fun same => ?_) fun apart => apart (.inl (.inl (by simp [opens])))
        have few := slashes_of_words ((scans_comment_iff opens).mp scans)
        rw [same, ← slashes_of_render, render] at few
        obtain ⟨rest, slash⟩ := comment_head opens
        obtain ⟨m, positive⟩ := Nat.exists_eq_add_of_lt (comment_length opens)
        rw [slash, positive, List.drop_succ_cons, List.count_cons_self] at few
        have fewer := (List.drop_sublist (0 + m) rest).count_le '/'
        omega
      | none =>
        have settled := settled_append alone.settled alone.filled opens
        have filled : token ++ render ps ≠ [] := List.append_ne_nil_of_left_ne_nil alone.filled _
        obtain ⟨later, rfl, behind⟩ := (scans_lexeme_iff settled filled).mp scans
        have solid : (measure (token ++ render ps)).1 ≠ .eof := by
          obtain ⟨c, cs, text⟩ := List.exists_cons_of_ne_nil filled
          rw [text]
          exact (measure_solid c cs).1
        have stops := measure_iff alone opens
        rw [words_lexeme solid, put, List.cons.injEq, String.toList_ofList, Fused, not_or]
        by_cases runs : Fuses token (render ps)
        · refine iff_of_false (fun same => ?_) fun apart => apart.1 runs
          have bounded := (knows_append alone (render ps)).1.bounded
          have length := congrArg List.length same.1
          rw [List.length_take, Nat.min_eq_left bounded] at length
          exact stops.mp length runs
        · have length := stops.mpr runs
          rw [length, List.drop_left] at behind
          rw [length, List.take_left, eq_self, true_and, and_iff_right runs]
          exact ih others behind

/-- No lexeme begins with a byte order mark. -/
theorem unmarked_of_knows {c : Char} {cs : List Char} {found : Shape × Nat}
    (knows : Knows (c :: cs) found) : c ≠ '\ufeff' := by
  have patterns : ∀ r ∈ numbers, r.2.avoids '\ufeff' = true := by decide
  have symbols : ∀ m ∈ marks, '\ufeff' ∉ m.toList := by decide
  have positive := knows.positive
  rintro rfl
  have first : '\ufeff' ∈ ('\ufeff' :: cs).take found.2 := by
    obtain ⟨n, more⟩ := Nat.exists_eq_add_of_lt positive
    rw [more, List.take_succ_cons]
    exact List.mem_cons_self
  cases knows with
  | word start => exact absurd start (by decide +kernel)
  | number _ number =>
    obtain ⟨r, member, longest⟩ := number_eq_some number
    exact Pattern.not_mem_of_longest (patterns _ member) longest first
  | mark _ _ mark =>
    obtain ⟨m, member, text⟩ := mark_eq_some mark
    exact symbols m member (text ▸ first)

theorem beginning_render {ps : List (Option (List Char))}
    (all : ∀ token, some token ∈ ps → IsToken token) :
    beginning (String.ofList (render ps)) = (.origin, render ps) := by
  unfold beginning
  rw [String.toList_ofList]
  split
  · rename_i cs text
    rcases ps with _ | ⟨_ | token, ps⟩
    · cases text
    · cases text
    · have alone := all token List.mem_cons_self
      obtain ⟨c, token, rfl⟩ := List.exists_cons_of_ne_nil alone.filled
      obtain ⟨rfl, -⟩ := List.cons.inj text
      exact absurd rfl (unmarked_of_knows (knows_of_isToken alone))
  · rfl

/-- The tokens of a text that is put together. -/
theorem tokens_iff {ps : List (Option (List Char))} (all : ∀ token, some token ∈ ps → IsToken token) :
    tokens (String.ofList (render ps)) = (ps.filterMap id).map String.ofList ↔ ¬ Fused ps := by
  have scans := (scans_iff (String.ofList (render ps)) _).mpr rfl
  rw [beginning_render all] at scans
  rw [← words_iff all scans]
  have same : (tokens (String.ofList (render ps))).map String.toList =
      words (scan (String.ofList (render ps))) := by simp [tokens, words]
  rw [← same]
  constructor
  · intro tokens
    simp [tokens]
  · intro words
    rw [← words]
    simp

theorem tokens_of_isToken {text : String} (token : IsToken text.toList) : tokens text = [text] := by
  have apart : ¬ Fused [some text.toList] := by
    rintro ((opens | ⟨more, filled, begins, -⟩) | wrong)
    · rw [render, List.append_nil] at opens
      exact opens token.settled.2
    · exact filled (List.prefix_nil.mp begins)
    · exact wrong
  have alone : ∀ token, some token ∈ [some text.toList] → IsToken token := by simpa using token
  have whole := (tokens_iff alone).mpr apart
  simpa [render] using whole

/-! ### What can run on -/

theorem no_comment_of_head {c : Char} (other : c ≠ '/') (cs : List Char) : comment (c :: cs) = none := by
  cases found : comment (c :: cs) with
  | none => rfl
  | some n =>
    obtain ⟨rest, same⟩ := comment_head found
    exact absurd (List.cons.inj same).1 other

/-- A word runs on exactly if a character that can stand in a word is behind it. -/
theorem word_fuses_iff {word : List Char} (token : IsToken word) (named : (measure word).1 = .word)
    (rest : List Char) : Fuses word rest ↔ ∃ c ∈ rest.head?, isIdentifierPart c = true := by
  have knows := knows_of_isToken token
  have whole := token.whole
  generalize measure word = found at knows whole named
  cases knows with
  | @word c cs start =>
    have slash : c ≠ '/' := by
      rintro rfl
      cases start
    have all : cs.takeWhile isIdentifierPart = cs := by
      refine (List.takeWhile_prefix _).eq_of_length ?_
      rw [List.length_cons] at whole
      omega
    have further : measure (c :: (cs ++ rest)) = _ := measure_of_knows (.word start)
    have stops := measure_iff token (no_comment_of_head slash (cs ++ rest))
    rw [List.cons_append, further,
      List.takeWhile_append_of_pos (List.takeWhile_eq_self_iff.mp all)] at stops
    rw [← not_iff_not, ← stops]
    cases rest with
    | nil => simp [Nat.add_comm]
    | cons d rest =>
      by_cases part : isIdentifierPart d = true
      · simp [part]
        omega
      · simp [part, Nat.add_comm]
  | number _ number =>
    have shape := number_shape number
    rw [named] at shape
    simp at shape
  | _ => cases named

/-- What stands between quotes never runs on. -/
theorem quoted_apart {quoted : List Char} (token : IsToken quoted)
    (looks : (measure quoted).1.isFlat = false) (rest : List Char) : ¬ Fuses quoted rest := by
  have knows := knows_of_isToken token
  have further := measure_of_knows (knows.append_quoted looks rest)
  refine (measure_iff token ?_).mp (by rw [further]; exact token.whole)
  generalize measure quoted = found at knows looks
  cases knows with
  | raw => exact no_comment_of_head (by decide) _
  | interpreted => exact no_comment_of_head (by decide) _
  | rune => exact no_comment_of_head (by decide) _
  | number _ number =>
    rw [number_flat number] at looks
    cases looks
  | _ => cases looks

theorem shape_of_fuses {token rest : List Char} (alone : IsToken token) (fuses : Fuses token rest) :
    (measure token).1 ∈ [.word, .int, .float, .imaginary, .mark] := by
  have quoted (looks : (measure token).1.isFlat = false) : False := quoted_apart alone looks rest fuses
  have knows := knows_of_isToken alone
  have whole := alone.whole
  generalize measure token = found at knows whole quoted
  cases knows with
  | nul =>
    refine absurd fuses ((measure_iff alone (no_comment_of_head (by decide) _)).mp ?_)
    rw [← whole]
    exact congrArg Prod.snd (measure_of_knows .nul)
  | raw => exact (quoted rfl).elim
  | interpreted => exact (quoted rfl).elim
  | rune => exact (quoted rfl).elim
  | word => exact List.mem_cons_self
  | mark => simp
  | number _ number =>
    have among : [Shape.int, .float, .imaginary] ⊆ [.word, .int, .float, .imaginary, .mark] := by simp
    exact among (number_shape number)

/-- The token is one that blanks between words do not keep apart from what stands behind it: a sign, a
number, or a word before a character of identifiers, where not both sides of the seam are letters, digits
or underscores. -/
structure Escapes (token rest : List Char) : Prop where
  shape : (measure token).1 ∈ [.word, .int, .float, .imaginary, .mark]
  word : (measure token).1 = .word → ∃ c ∈ rest.head?, isIdentifierPart c = true
  seam : ¬ (endsInWord token = true ∧ startsWithWord rest = true)

end SwitchLint.Go.Lexeme
