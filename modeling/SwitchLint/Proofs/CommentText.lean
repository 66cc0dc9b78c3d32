import SwitchLint.Proofs.Cutting
import SwitchLint.Proofs.LongestLexeme
import SwitchLint.Proofs.PieceByPiece

/-!
What a comment says. Between lexemes a comment is passed over as a whole, so a source in which it says
something else in the same room has the same lexemes at the same places, and it is read as the same
file.
-/

namespace SwitchLint

open Text
open String (utf8Len)

namespace Position

/-- The point behind lines of so many bytes. -/
def through : Position → List Nat → Position
  | p, [] => p
  | p, [n] => ⟨p.offset + n, p.line, p.column + n⟩
  | p, n :: m :: ns => through ⟨p.offset + n + 1, p.line + 1, 1⟩ (m :: ns)

/-- The point behind a text is told by the bytes of its lines. -/
theorem after_eq_through (p : Position) (cs : List Char) :
    p.after cs = p.through ((split '\n' cs).map utf8Len) := by
  induction cs generalizing p with
  | nil => rfl
  | cons c cs ih =>
    by_cases feed : c = '\n'
    · obtain ⟨line, lines, rest⟩ := List.exists_cons_of_ne_nil (split_nonempty '\n' cs)
      rw [after_cons, ih, split, if_pos feed, rest]
      simp [through, advance, feed]
    · obtain ⟨line, lines, rest, whole⟩ := split_cons feed cs
      rw [after_cons, ih, rest, whole]
      cases lines <;> simp [through, advance, feed, Nat.add_assoc, Nat.add_comm, Nat.add_left_comm]

end Position

namespace Go.Lexeme

/-! ### Another comment in the same place -/

theorem closes_slash {cs : List Char} : Closes ('/' :: cs) ↔ Closes cs := by
  rw [closes_cons_iff, or_iff_right]
  rintro ⟨wrong, -⟩
  cases wrong

theorem closes_append {a b : List Char} (closes : Closes (a ++ b)) :
    Closes a ∨ Closes b ∨ (a.getLast? = some '*' ∧ b.head? = some '/') := by
  induction a with
  | nil => exact .inr (.inl closes)
  | cons c a ih =>
    rcases closes_cons_iff.mp closes with ⟨rfl, more, whole⟩ | closes
    · cases a with
      | nil => exact .inr (.inr ⟨rfl, by rw [show b = _ from whole]; rfl⟩)
      | cons d a =>
        obtain ⟨rfl, -⟩ := List.cons.inj whole
        exact .inl (closes_cons_iff.mpr (.inl ⟨rfl, a, rfl⟩))
    · rcases ih closes with left | right | ⟨last, head⟩
      · exact .inl (closes_cons_iff.mpr (.inr left))
      · exact .inr (.inl right)
      · refine .inr (.inr ⟨?_, head⟩)
        rw [List.getLast?_cons, last]
        rfl

/-- Two comments that end at the same place with the same text behind them. The second one closes nothing
that the first one leaves open. -/
structure Exchange (c c' after : List Char) : Prop where
  first : comment (c ++ after) = some c.length
  second : comment (c' ++ after) = some c'.length
  place : ∀ p : Position, p.after c' = p.after c
  closes : Closes (c' ++ after) → Closes (c ++ after)

theorem slash_of_comment {c after : List Char} (found : comment (c ++ after) = some c.length) :
    ∃ rest, c ++ after = '/' :: rest := by
  have positive := comment_length found
  cases c with
  | nil => cases positive
  | cons d c => exact comment_head found

section

variable {c c' after x : List Char} (exchange : Exchange c c' after)
include exchange

theorem comment_exchange {n : Nat} (found : comment (x ++ (c ++ after)) = some n)
    (inside : n ≤ x.length) : comment (x ++ (c' ++ after)) = some n := by
  obtain ⟨z, first⟩ := slash_of_comment exchange.first
  obtain ⟨z', second⟩ := slash_of_comment exchange.second
  rw [first, List.append_cons] at found
  rw [second, List.append_cons]
  refine comment_append found ?_ z'
  rw [List.length_append, List.length_singleton]
  exact Nat.lt_succ_of_le inside

theorem no_comment_exchange (filled : x ≠ []) (nothing : comment (x ++ (c ++ after)) = none) :
    comment (x ++ (c' ++ after)) = none := by
  obtain ⟨z, first⟩ := slash_of_comment exchange.first
  obtain ⟨z', second⟩ := slash_of_comment exchange.second
  have closes := exchange.closes
  rw [first, second] at closes
  rw [first, comment_eq_none] at nothing
  rw [second, comment_eq_none]
  obtain ⟨noLine, noBlock⟩ := nothing
  rcases x with _ | ⟨d, _ | ⟨e, x⟩⟩
  · exact absurd rfl filled
  · refine ⟨fun rest same => ?_, fun rest same => ?_⟩
    · obtain ⟨rfl, -⟩ := List.cons.inj same
      exact absurd rfl (noLine z)
    · simp at same
  · refine ⟨fun rest same => ?_, fun rest same closed => ?_⟩
    · obtain ⟨rfl, rfl, -⟩ : d = '/' ∧ e = '/' ∧ _ := by simpa using same
      exact noLine _ rfl
    · obtain ⟨rfl, rfl, rfl⟩ : d = '/' ∧ e = '*' ∧ x ++ '/' :: z' = rest := by simpa using same
      -- What closes a comment here does so before the exchange, or the first comment closes it too.
      refine noBlock (x ++ '/' :: z) rfl ?_
      rw [List.append_cons] at closed
      rcases closes_append closed with left | right | ⟨last, -⟩
      · rw [List.append_cons]
        exact left.trans (List.prefix_append _ _).isInfix
      · exact (closes (closes_cons_iff.mpr (.inr right))).trans (List.suffix_append _ _).isInfix
      · simp at last

theorem settled_exchange (filled : x ≠ []) (settled : Settled (x ++ (c ++ after))) :
    Settled (x ++ (c' ++ after)) := by
  refine ⟨?_, no_comment_exchange exchange filled settled.2⟩
  obtain ⟨d, x, rfl⟩ := List.exists_cons_of_ne_nil filled
  exact settled.1

theorem measure_exchange (known : (measure (x ++ (c ++ after))).1 ≠ .unknown)
    (inside : (measure (x ++ (c ++ after))).2 ≤ x.length) (filled : x ≠ []) :
    measure (x ++ (c' ++ after)) = measure (x ++ (c ++ after)) := by
  obtain ⟨z', second⟩ := slash_of_comment exchange.second
  have knows := knows_of_measure known (List.append_ne_nil_of_left_ne_nil filled _)
  rw [second]
  exact measure_of_knows ((knows.of_append inside).append_slash z')

/-- Up to the comment the pieces of the two texts are the same. -/
theorem scans_exchange {p q : Position} {b : Option Break} {cs : List Char} {ls : List Lexeme}
    (scans : Scans p b cs ls) (whole : cs = x ++ (c ++ after)) (passes : Passes (p, cs) (q, c ++ after))
    (known : ∀ l ∈ ls, l.shape ≠ .unknown) : Scans p b (x ++ (c' ++ after)) ls := by
  -- Where nothing stands before the comments, both texts go on behind them.
  have here {p : Position} {b : Option Break} {ls : List Lexeme} (scans : Scans p b (c ++ after) ls) :
      Scans p b (c' ++ after) ls := by
    rw [scans_comment_iff exchange.first, List.take_left, List.drop_left] at scans
    rw [scans_comment_iff exchange.second, List.take_left, List.drop_left, exchange.place]
    exact scans
  have more : c ++ after ≠ [] := by
    obtain ⟨z, first⟩ := slash_of_comment exchange.first
    rw [first]
    exact List.cons_ne_nil '/' z
  induction scans generalizing x with
  | done => exact absurd (List.append_eq_nil_iff.mp whole.symm).2 more
  | @blank p b d cs ls space scans ih =>
    cases x with
    | nil => exact here (whole ▸ .blank space scans)
    | cons e x =>
      rw [whole] at passes
      obtain ⟨rfl, rfl⟩ := List.cons.inj whole
      obtain ⟨-, passes⟩ := passes.piece (List.cons_ne_nil d x) more
      have one : stride (d :: x ++ (c ++ after)) = 1 := by simp [stride, space]
      rw [one] at passes
      have later := ih rfl passes known
      obtain ⟨z, first⟩ := slash_of_comment exchange.first
      obtain ⟨z', second⟩ := slash_of_comment exchange.second
      have feeds : noted p b d (x ++ (c ++ after)) = noted p b d (x ++ (c' ++ after)) := by
        rw [noted, noted, first, second, takeWhile_append_of_stop rfl, takeWhile_append_of_stop rfl]
      exact .blank space (feeds ▸ later)
  | @comment p b cs n ls found scans ih =>
    cases x with
    | nil => exact here (whole ▸ .comment found scans)
    | cons e x =>
      subst whole
      obtain ⟨inside, passes⟩ := passes.piece (List.cons_ne_nil e x) more
      have length : stride (e :: x ++ (c ++ after)) = n := by
        obtain ⟨rest, slash⟩ := comment_head found
        rw [slash] at found ⊢
        exact stride_of_comment rfl found
      rw [length] at inside passes
      have behind (z : List Char) : (e :: x ++ z).drop n = (e :: x).drop n ++ z :=
        List.drop_append_of_le_length inside
      have within (z : List Char) : (e :: x ++ z).take n = (e :: x).take n :=
        List.take_append_of_le_length inside
      refine .comment (comment_exchange exchange found inside) ?_
      rw [behind, within, ← within (c ++ after)]
      exact ih (behind _) (behind (c ++ after) ▸ passes) known
  | @lexeme p b cs stop ls settled filled place scans ih =>
    cases x with
    | nil => exact here (whole ▸ .lexeme settled filled place scans)
    | cons e x =>
      subst whole
      have some := List.cons_ne_nil e x
      obtain ⟨inside, passes⟩ := passes.piece some more
      obtain ⟨first, later⟩ := List.forall_mem_cons.mp known
      rw [stride_of_settled settled] at inside passes
      have behind (z : List Char) : (e :: x ++ z).drop _ = (e :: x).drop _ ++ z :=
        List.drop_append_of_le_length inside
      have within (z : List Char) : (e :: x ++ z).take _ = (e :: x).take _ :=
        List.take_append_of_le_length inside
      have same := measure_exchange exchange first inside some
      have lexeme := @Scans.lexeme p b _ _ ls (settled_exchange exchange some settled)
        (List.append_ne_nil_of_left_ne_nil some _) rfl ?_
      · rw [same, within, ← within (c ++ after), ← place] at lexeme
        exact lexeme
      · rw [same, within, ← within (c ++ after), ← place, behind]
        exact ih (behind _) (by rw [place, behind]; exact passes) later

end

/-! ### Comments that say something else -/

/-- The second text can stand in a comment in place of the first one: it has the same lines in bytes, no
null character, and it does not close a comment where the first one does not. -/
structure SameRoom (inside inside' : List Char) : Prop where
  lines : (split '\n' inside').map utf8Len = (split '\n' inside).map utf8Len
  filled : '\x00' ∉ inside'
  closes : Closes inside' → Closes inside

/-- Two comments of one form of which the second one says something else in the same room. -/
inductive Rewords : List Char → List Char → Prop
  | line {inside inside'} : SameRoom inside inside' →
      Rewords ('/' :: '/' :: inside) ('/' :: '/' :: inside')
  | block {inside inside'} : SameRoom inside inside' →
      Rewords ('/' :: '*' :: (inside ++ ['*', '/'])) ('/' :: '*' :: (inside' ++ ['*', '/']))

theorem SameRoom.place {inside inside' : List Char} (room : SameRoom inside inside') (p : Position) :
    p.after inside' = p.after inside := by
  rw [Position.after_eq_through, Position.after_eq_through, room.lines]

theorem SameRoom.unbroken {inside inside' : List Char} (room : SameRoom inside inside')
    (unbroken : '\n' ∉ inside) : '\n' ∉ inside' := by
  have line := congrArg Position.line (room.place .origin)
  rw [Position.after_line, Position.after_line, List.count_eq_zero_of_not_mem unbroken] at line
  exact List.count_eq_zero.mp (by omega)

theorem takeWhile_exact {α : Type} {p : α → Bool} {x y : List α}
    (length : ((x ++ y).takeWhile p).length = x.length) :
    (∀ c ∈ x, p c = true) ∧ y.takeWhile p = [] := by
  rw [List.takeWhile_append] at length
  split at length
  · rename_i all
    rw [List.length_append] at length
    have same := (List.takeWhile_prefix p).eq_of_length all
    exact ⟨List.takeWhile_eq_self_iff.mp same, List.length_eq_zero_iff.mp (by omega)⟩
  · rename_i stops
    exact absurd length stops

theorem exchange_of_rewords {c c' after : List Char} (rewords : Rewords c c')
    (found : comment (c ++ after) = some c.length) : Exchange c c' after := by
  cases rewords with
  | @line inside inside' room =>
    have length : ((inside ++ after).takeWhile (· ≠ '\n')).length = inside.length := by
      have whole : 2 + ((inside ++ after).takeWhile (· ≠ '\n')).length = inside.length + 2 :=
        Option.some.inj found
      omega
    obtain ⟨all, ends⟩ := takeWhile_exact length
    have unbroken := room.unbroken fun feed => by simpa using all _ feed
    have same : (inside' ++ after).takeWhile (· ≠ '\n') = inside' := by
      rw [List.takeWhile_append_of_pos, ends, List.append_nil]
      intro d hd
      simp only [ne_eq, decide_eq_true_eq]
      rintro rfl
      exact unbroken hd
    refine ⟨found, ?_, fun p => room.place _, fun closed => ?_⟩
    · rw [List.cons_append, List.cons_append, comment, same, Nat.add_comm]
      rfl
    · -- The text behind a comment that goes to the end of its line begins with no slash.
      have behind : after.head? ≠ some '/' := by
        rintro head
        obtain ⟨rest, rfl⟩ := List.head?_eq_some_iff.mp head
        simp at ends
      rw [List.cons_append, List.cons_append, closes_slash, closes_slash] at closed ⊢
      rcases closes_append closed with left | right | ⟨-, head⟩
      · exact (room.closes left).trans (List.prefix_append _ _).isInfix
      · exact right.trans (List.suffix_append _ _).isInfix
      · exact absurd head behind
  | @block inside inside' room =>
    have form (text : List Char) : '/' :: '*' :: (text ++ ['*', '/']) ++ after =
        '/' :: '*' :: (text ++ '*' :: '/' :: after) := by simp
    have size (text : List Char) : ('/' :: '*' :: (text ++ ['*', '/'])).length = text.length + 2 + 2 := by
      simp
    simp only [form, size, comment, Option.map_eq_some_iff] at found
    obtain ⟨n, rest, length⟩ := found
    obtain ⟨inner, behind, whole, rfl, opens⟩ := blockCommentRest_eq_some.mp rest
    obtain ⟨rfl, -⟩ := List.append_inj whole (by omega)
    refine ⟨?_, ?_, fun p => ?_, fun _ => ?_⟩
    · rw [form, size, comment, rest]
      rfl
    · have rest' := blockCommentRest_eq_some.mpr
        ⟨inside', after, rfl, rfl, fun closed => opens (room.closes closed)⟩
      rw [form, size, comment, rest']
      rfl
    · simp only [Position.after_cons, Position.after_append, room.place]
    · rw [form]
      exact ⟨'/' :: '*' :: inside, after, by simp⟩

end Go.Lexeme

namespace Go

open Lexeme

/-- Behind `before` and in front of `after` the comment stands in the source, between lexemes. -/
def CommentIn (source : String) (before text after : List Char) : Prop :=
  ∃ p, source.toList = before ++ (text ++ after) ∧ Passes (beginning source) (p, text ++ after) ∧
    comment (text ++ after) = some text.length

theorem parseTree_of_scan {source source' : String} {t : Tree} (same : scan source' = scan source)
    (read : parseTree source = .ok t) : parseTree source' = .ok t := by
  unfold parseTree at read ⊢
  dsimp only at read ⊢
  rw [same]
  split at read
  · cases read
  · rename_i steps proposed
    exact read

/-- Texts that go on with a slash behind the same beginning are read from the same point on. -/
theorem beginning_common {source source' : String} {before z z' : List Char}
    (whole : source.toList = before ++ '/' :: z) (whole' : source'.toList = before ++ '/' :: z') :
    ∃ p x, beginning source = (p, x ++ '/' :: z) ∧ beginning source' = (p, x ++ '/' :: z') := by
  unfold beginning
  rw [whole, whole']
  rcases before with _ | ⟨d, x⟩
  · exact ⟨.origin, [], rfl, rfl⟩
  · by_cases order : d = '\ufeff'
    · subst order
      exact ⟨_, x, rfl, rfl⟩
    · exact ⟨.origin, d :: x, by simp [order], by simp [order]⟩

theorem scan_rewords {source : String} {before text text' after : List Char}
    (comment : CommentIn source before text after) (rewords : Rewords text text')
    (known : ∀ l ∈ scan source, l.shape ≠ .unknown) :
    scan (String.ofList (before ++ (text' ++ after))) = scan source := by
  obtain ⟨p, whole, passes, found⟩ := comment
  have exchange := exchange_of_rewords rewords found
  obtain ⟨z, first⟩ := slash_of_comment exchange.first
  obtain ⟨z', second⟩ := slash_of_comment exchange.second
  have whole' : (String.ofList (before ++ (text' ++ after))).toList = before ++ '/' :: z' := by
    rw [String.toList_ofList, second]
  obtain ⟨start, x, begins, begins'⟩ := beginning_common (whole.trans (by rw [first])) whole'
  have scans := (scans_iff source _).mpr rfl
  rw [begins] at passes scans
  rw [← first] at passes scans
  rw [← scans_iff, begins']
  have scans' := scans_exchange exchange scans rfl passes known
  rwa [second] at scans'

/-- What a comment between lexemes says is not read. -/
theorem parse_rewords {source : String} {file : SourceFile} {before text text' after : List Char}
    (comment : CommentIn source before text after) (rewords : Rewords text text')
    (read : parse source = .ok file) :
    parse (String.ofList (before ++ (text' ++ after))) = .ok file := by
  obtain ⟨t, concrete, rfl⟩ := parse_eq_ok read
  obtain ⟨steps, built⟩ := parseTree_eq_ok concrete
  have same := scan_rewords comment rewords (Tree.ofSteps_known built)
  rw [parse, parseTree_of_scan same concrete]
  rfl

def commentedHead : String :=
  "package p\nfunc f() \x7b // é\n\tswitch v \x7b\n\tcase a"

def commentedTail : String := ".b:\n\t\x7d\n\x7d\n"

/-- A source with a comment inside a selector. -/
def commented (comment : String) : String := commentedHead ++ comment ++ commentedTail

theorem parse_rewords_in_selector :
    ∃ file, parse (commented "/* é\n\" */") = .ok file ∧
      (file.functions.map fun f => f.body.map fun body => (Stmt.switches body.stmts).map Prod.snd) =
        [some [⟨28, 62, 3, 2⟩]] ∧
      parse (commented "/* ab\n//*/") = .ok file := by
  have run : (parse (commented "/* é\n\" */")).toOption.map (fun file => file.functions.map fun f =>
      f.body.map fun body => (Stmt.switches body.stmts).map Prod.snd) =
        some [some [⟨28, 62, 3, 2⟩]] := by decide +kernel
  obtain ⟨file, read, found⟩ := parse_of_run run
  have reads : pieces 25 (beginning (commented "/* é\n\" */")) =
      (⟨46, 4, 8⟩, "/* é\n\" */".toList ++ commentedTail.toList) := by decide +kernel
  have comment : CommentIn (commented "/* é\n\" */") commentedHead.toList "/* é\n\" */".toList
      commentedTail.toList := by
    refine ⟨⟨46, 4, 8⟩, ?_, ?_, by decide +kernel⟩
    · rw [commented, String.toList_append, String.toList_append, List.append_assoc]
    · rw [← reads]
      exact passes_pieces 25 _
  have room : SameRoom " é\n\" ".toList " ab\n//".toList :=
    ⟨by decide +kernel, by decide, fun wrong => absurd wrong (by decide)⟩
  have reworded := parse_rewords comment (.block room) read
  have same : String.ofList (commentedHead.toList ++ ('/' :: '*' :: (" ab\n//".toList ++ ['*', '/']) ++
      commentedTail.toList)) = commented "/* ab\n//*/" := by
    rw [← String.toList_inj, String.toList_ofList, commented, String.toList_append,
      String.toList_append, List.append_assoc]
    rfl
  exact ⟨file, read, found, same ▸ reworded⟩

/-- A source with a comment behind a line break inside a string. -/
def broken (comment : String) : String :=
  "package p\nfunc f() \x7b\n\tswitch v \x7b\n\tcase load(\"a\n" ++ comment ++ "b\").Opts:\n\t\x7d\n\x7d\n"

/-- The texts of the cases of all switches. -/
def caseTexts (file : SourceFile) : List (List String) :=
  file.functions.flatMap fun f => f.body.toList.flatMap fun body => (Stmt.switches body.stmts).flatMap
    fun s => s.1.map fun c => (c.exprs.getD []).map Expr.text

/-- Such a comment is a part of the string, and what it says is read. -/
theorem comment_in_string_read :
    Rewords "/*x*/".toList "/*y*/".toList ∧ ∃ file file',
      parse (broken "/*x*/") = .ok file ∧ caseTexts file = [["load(\"a\n/*x*/b\").Opts"]] ∧
      parse (broken "/*y*/") = .ok file' ∧ caseTexts file' = [["load(\"a\n/*y*/b\").Opts"]] ∧
      file ≠ file' := by
  have room : SameRoom ['x'] ['y'] := ⟨by decide, by decide, fun wrong => absurd wrong (by decide)⟩
  obtain ⟨file, read, texts⟩ : ∃ file, parse (broken "/*x*/") = .ok file ∧
      caseTexts file = [["load(\"a\n/*x*/b\").Opts"]] := parse_of_run (by decide +kernel)
  obtain ⟨file', read', texts'⟩ : ∃ file, parse (broken "/*y*/") = .ok file ∧
      caseTexts file = [["load(\"a\n/*y*/b\").Opts"]] := parse_of_run (by decide +kernel)
  refine ⟨.block room, file, file', read, texts, read', texts', fun same => ?_⟩
  rw [same, texts'] at texts
  revert texts
  decide

end Go

end SwitchLint
