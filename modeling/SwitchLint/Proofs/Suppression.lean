import Mathlib.Data.Option.Basic
import SwitchLint.Go.Reading
import SwitchLint.Proofs.Cutting
import SwitchLint.Proofs.Lines
import SwitchLint.Proofs.Tiling
import SwitchLint.Proofs.Walk

/-!
Which comments suppress a finding. Directives are searched for in the text of a line: the first marker
counts if two slashes stand before it. Where a marker that counts is the beginning of a comment, and no
marker stands before such a comment, this finds what the comments say.
-/

namespace SwitchLint

open Text

namespace Directive

def marker : List Char := "chainlint:".toList

/-- What stands behind a marker, as a directive. -/
def behindMarker (after : List Char) : Option Directive := do
  let inner ← after? "allow(".toList (trim after)
  let (names, rest) ← cut? [')'] (trim inner)
  let rules := parseRules names
  guard (rules ≠ [])
  pure ⟨rules, parseReason rest⟩

/-- The directive that a comment gives; the text is what follows its slashes. -/
def ofComment (text : List Char) : Option Directive :=
  (after? marker (trimStart text)).bind behindMarker

theorem parse_eq_some_iff (line : List Char) (d : Directive) :
    parse line = some d ↔ ∃ lead after, cut? marker line = some (lead, after) ∧
      ['/', '/'] <:+ trimEnd lead ∧ behindMarker after = some d := by
  simp only [parse, ← endsWith_iff, Option.bind_eq_bind, Option.bind_eq_some_iff]
  constructor
  · rintro ⟨⟨lead, after⟩, found, _, slashes, inner⟩
    refine ⟨lead, after, found, (Option.guard_eq_some' _).mp slashes, ?_⟩
    simpa [behindMarker, Option.bind_eq_some_iff] using inner
  · rintro ⟨lead, after, found, slashes, inner⟩
    refine ⟨(lead, after), found, (), (Option.guard_eq_some' _).mpr slashes, ?_⟩
    simpa [behindMarker, Option.bind_eq_some_iff] using inner

/-- A carriage return behind a comment makes no difference. -/
theorem behindMarker_return (after : List Char) :
    behindMarker (after ++ ['\r']) = behindMarker after := by
  rw [behindMarker, trim_concat after (by decide), behindMarker]

theorem ofComment_return (text : List Char) : ofComment (text ++ ['\r']) = ofComment text := by
  unfold ofComment
  rcases trimStart_concat text (c := '\r') (by decide) with kept | ⟨none, none'⟩
  · rw [kept, after_concat (by decide), Option.bind_map]
    exact congrArg _ (funext behindMarker_return)
  · rw [none, none']

/-- The first marker of a line is the one behind the slashes, unless one stands before them. -/
theorem cut_behind_slashes {before blanks after : List Char} (blank : ∀ c ∈ blanks, isBlank c = true)
    (absent : ¬ marker <:+: before) :
    cut? marker (before ++ '/' :: '/' :: (blanks ++ (marker ++ after))) =
      some (before ++ '/' :: '/' :: blanks, after) := by
  have noSlash : '/' ∉ marker := by decide
  rw [cut_eq_some_iff]
  refine ⟨by simp, fun before' rest whole => ?_⟩
  by_contra earlier
  simp only [List.length_append, List.length_cons, Nat.not_le] at earlier
  rw [List.append_assoc] at whole
  rcases List.append_eq_append_iff.mp whole with ⟨gap, rfl, slashes⟩ | ⟨gap, rfl, slashes⟩
  · -- An earlier marker would begin at the slashes or in the white space.
    match gap, slashes with
    | [], slashes => cases slashes
    | [_], slashes => cases slashes
    | _ :: _ :: gap, slashes =>
      simp only [List.cons_append, List.cons.injEq] at slashes
      rcases List.append_eq_append_iff.mp slashes.2.2 with ⟨more, rfl, _⟩ | ⟨more, rfl, tail⟩
      · simp only [List.length_append, List.length_cons] at earlier
        omega
      · cases more with
        | nil => simp at earlier
        | cons c more =>
          have first : 'c' = c := (List.cons.inj tail).1
          subst first
          cases blank 'c' (by simp)
  · -- Or it would stand before the slashes, or go on over them.
    rcases List.append_eq_append_iff.mp slashes with ⟨more, rfl, _⟩ | ⟨more, same, tail⟩
    · exact absent ⟨before', more, by simp⟩
    · cases more with
      | nil => exact absent ⟨before', [], by simp [same]⟩
      | cons c more =>
        obtain rfl := (List.cons.inj tail).1
        exact noSlash (by simp [same])

theorem slashes_end (before : List Char) {blanks : List Char} (blank : ∀ c ∈ blanks, isBlank c = true) :
    trimEnd (before ++ '/' :: '/' :: blanks) = before ++ ['/', '/'] := by
  have apart : before ++ '/' :: '/' :: blanks = (before ++ ['/'] ++ ['/']) ++ blanks := by simp
  rw [apart, trimEnd_blanks _ blank, trimEnd_concat _ (by decide), List.append_assoc, List.singleton_append]

end Directive

/-! ### Comments of a source -/

namespace Go

open Lexeme

/-- On line `n`, behind `before`, a comment opens that goes on to the end of the line; `text` is what
follows its slashes. -/
def LineComment (source : String) (n : Nat) (before text : List Char) : Prop :=
  ∃ head rest p, source.toList = head ++ (before ++ '/' :: '/' :: rest) ∧ WholeLines head ∧
    '\n' ∉ before ∧ Passes (beginning source) (p, '/' :: '/' :: rest) ∧ p.line = n ∧
    text = rest.takeWhile (· ≠ '\n')

/-- A line as the search for directives sees it ends with the comment. -/
theorem LineComment.line {source : String} {n : Nat} {before text : List Char}
    (comment : LineComment source n before text) :
    ∃ shown, Directive.ofComment shown = Directive.ofComment text ∧
      Allowance.line? source n = some (before ++ '/' :: '/' :: shown) := by
  obtain ⟨head, rest, p, whole, lines, unbroken, passes, rfl, rfl⟩ := comment
  have number : p.line = head.count '\n' + 1 := by
    obtain ⟨read, whole', place⟩ := passes_beginning passes
    have same : read = head ++ before := by
      have texts : read ++ '/' :: '/' :: rest = head ++ before ++ '/' :: '/' :: rest := by
        rw [← whole', whole, List.append_assoc]
      exact List.append_cancel_right texts
    rw [place, same, Position.after_line, List.count_append, List.count_eq_zero_of_not_mem unbroken]
    simp [Position.origin, Nat.add_comm]
  have unbroken' : '\n' ∉ before ++ '/' :: '/' :: rest.takeWhile (· ≠ '\n') := by
    simp only [List.mem_append, List.mem_cons, not_or]
    refine ⟨unbroken, by decide, by decide, fun member => ?_⟩
    simpa using List.mem_takeWhile_imp member
  have ends : rest.dropWhile (· ≠ '\n') = [] ∨ (rest.dropWhile (· ≠ '\n')).head? = some '\n' := by
    have kept := List.head?_dropWhile_not (· ≠ '\n') rest
    cases left : rest.dropWhile (· ≠ '\n') with
    | nil => exact .inl rfl
    | cons c cs =>
      rw [left] at kept
      exact .inr (by simpa using kept)
  obtain ⟨line, kept, found⟩ := line_behind lines unbroken' (by simp) ends
  rw [List.append_assoc, List.cons_append, List.cons_append, List.takeWhile_append_dropWhile, ← whole]
    at found
  have shows {shown : List Char} (same : line = before ++ '/' :: '/' :: shown) :
      Allowance.line? source p.line = some (before ++ '/' :: '/' :: shown) := by
    rw [number, ← same]
    exact found
  generalize rest.takeWhile (· ≠ '\n') = text at *
  rcases kept with rfl | rfl
  · exact ⟨text, rfl, shows rfl⟩
  · refine ⟨dropReturn text, ?_, shows ?_⟩
    · rcases dropReturn_eq text with same | ends
      · rw [same]
      · rw [← Directive.ofComment_return, ← ends]
    · have slash := dropReturn_append (before ++ ['/']) (c := '/') (by decide) text
      simpa using slash

/-- On line `n` the search for a marker and the comments agree. -/
structure Undisturbed (source : String) (n : Nat) : Prop where
  /-- Two slashes before the first marker open a comment. -/
  opens : ∀ line lead after, Allowance.line? source n = some line →
    cut? Directive.marker line = some (lead, after) → ['/', '/'] <:+ trimEnd lead →
    ∃ before text, LineComment source n before text ∧ trimEnd lead = before ++ ['/', '/']
  /-- No marker stands before a comment that begins with one. -/
  first : ∀ before text after, LineComment source n before text →
    after? Directive.marker (trimStart text) = some after → ¬ Directive.marker <:+: before

theorem ofComment_of_directive {source rule : String} {n : Nat} (undisturbed : Undisturbed source n)
    {d : Directive} (found : Allowance.directive? source rule n = some d) :
    ∃ before text, LineComment source n before text ∧ Directive.ofComment text = some d ∧
      d.names rule = true := by
  simp only [Allowance.directive?, Option.bind_eq_bind, Option.bind_eq_some_iff] at found
  obtain ⟨line, hline, d', parsed, named⟩ := found
  have applies : d' = d ∧ d'.names rule = true := by
    split at named
    · exact ⟨Option.some.inj named, by assumption⟩
    · cases named
  obtain ⟨rfl, allows⟩ := applies
  obtain ⟨lead, after, cut, slashes, inner⟩ := (Directive.parse_eq_some_iff line d').mp parsed
  obtain ⟨before, text, comment, opened⟩ := undisturbed.opens line lead after hline cut slashes
  refine ⟨before, text, comment, ?_, allows⟩
  obtain ⟨shown, same, hline'⟩ := comment.line
  obtain ⟨blanks, whole, blank⟩ := trimEnd_eq lead
  obtain ⟨whole', -⟩ := (cut_eq_some_iff Directive.marker line lead after).mp cut
  have behind : shown = blanks ++ (Directive.marker ++ after) := by
    rw [hline', Option.some.injEq] at hline
    rw [← hline, whole, opened] at whole'
    simpa using whole'
  have marked : trimStart (Directive.marker ++ after) = Directive.marker ++ after :=
    trimStart_cons (c := 'c') (by decide) _
  rw [← same, Directive.ofComment, behind, trimStart_blanks blank, marked,
    (after_eq_some_iff _ _ after).mpr rfl]
  exact inner

theorem directive_of_ofComment {source rule : String} {n : Nat} (undisturbed : Undisturbed source n)
    {before text : List Char} {d : Directive} (comment : LineComment source n before text)
    (given : Directive.ofComment text = some d) (named : d.names rule = true) :
    Allowance.directive? source rule n = some d := by
  have absent : ¬ Directive.marker <:+: before := by
    obtain ⟨after, marked, -⟩ := Option.bind_eq_some_iff.mp given
    exact undisturbed.first before text after comment marked
  obtain ⟨shown, same, hline⟩ := comment.line
  rw [← same] at given
  obtain ⟨after, marked, inner⟩ := Option.bind_eq_some_iff.mp given
  obtain ⟨blanks, whole, blank⟩ := trimStart_eq shown
  rw [(after_eq_some_iff _ _ after).mp marked] at whole
  have cut : cut? Directive.marker (before ++ '/' :: '/' :: shown) =
      some (before ++ '/' :: '/' :: blanks, after) := by
    rw [whole]
    exact Directive.cut_behind_slashes blank absent
  have slashes : ['/', '/'] <:+ trimEnd (before ++ '/' :: '/' :: blanks) :=
    ⟨before, (Directive.slashes_end before blank).symm⟩
  have parsed := (Directive.parse_eq_some_iff _ d).mpr ⟨_, after, cut, slashes, inner⟩
  simp [Allowance.directive?, hline, parsed, named]

end Go

theorem Allowance.check_eq_denied_iff (content rule : String) (line : Nat) :
    Allowance.check content line rule = .denied ↔
      ∀ n, n = line - 1 ∨ n = line → Allowance.directive? content rule n = none := by
  simp only [forall_eq_or_imp, forall_eq, Allowance.check]
  cases Allowance.directive? content rule (line - 1) with
  | some d => simp
  | none => cases Allowance.directive? content rule line <;> simp

namespace LongChain

open Go Go.Lexeme

theorem finding_mem_iff (rule : LongChain) (file : FileContext) (clauses : List Clause) (span : Span)
    (shared : List Expr) (reportable : rule.scan clauses = some shared) :
    rule.finding (.ofSpan file.path span) (chainText shared) ∈ rule.outcome file clauses span ↔
      Allowance.check file.content span.line name = .denied := by
  unfold outcome
  rw [reportable]
  cases Allowance.check file.content span.line name with
  | denied => simp
  | allowed reason =>
    cases reason with
    | some text => simp
    | none =>
      -- A notice is no finding: it is a warning where findings are errors.
      by_cases grave : rule.severity = .error
      · simp [grave, finding, missingReason]
      · simp [grave]

/-- The finding at a switch is suppressed if and only if a comment on the line of the switch or on the
line before it allows it, whatever else stands on these lines, as long as nothing on them but a comment
is taken for one. -/
theorem suppressed_iff (rule : LongChain) (file : FileContext) (clauses : List Clause) (span : Span)
    (shared : List Expr) (reportable : rule.scan clauses = some shared)
    (undisturbed : ∀ n, n = span.line - 1 ∨ n = span.line → Undisturbed file.content n) :
    rule.finding (.ofSpan file.path span) (chainText shared) ∉ rule.outcome file clauses span ↔
      ∃ n before text d, (n = span.line - 1 ∨ n = span.line) ∧
        LineComment file.content n before text ∧ Directive.ofComment text = some d ∧
        d.names name = true := by
  rw [rule.finding_mem_iff file clauses span shared reportable, Allowance.check_eq_denied_iff]
  constructor
  · intro suppressed
    push Not at suppressed
    obtain ⟨n, near, some⟩ := suppressed
    obtain ⟨d, found⟩ := Option.ne_none_iff_exists'.mp some
    obtain ⟨before, text, comment, given, named⟩ := ofComment_of_directive (undisturbed n near) found
    exact ⟨n, before, text, d, near, comment, given, named⟩
  · rintro ⟨n, before, text, d, near, comment, given, named⟩ none
    have found := directive_of_ofComment (undisturbed n near) comment given named
    rw [none n near] at found
    cases found

/-- `a.b.c.d` -/
def member : Expr :=
  ["b", "c", "d"].foldl (fun base field => base.select (.ident field .zero)) (.ident "a" .zero)

def repeatedTwice : List Clause := [.mk (some [member, member]) [] .zero]

def trailing : String := "switch v \x7b // chainlint: allow(long-chain)"

theorem trailing_comment :
    LineComment trailing 1 "switch v \x7b ".toList " chainlint: allow(long-chain)".toList :=
  ⟨[], " chainlint: allow(long-chain)".toList, ⟨11, 1, 12⟩, by decide, .inl rfl, by decide,
    passes_pieces 6 _, rfl, by decide⟩

theorem trailing_undisturbed (n : Nat) (near : n = 1 - 1 ∨ n = 1) : Undisturbed trailing n where
  opens line lead after hline cut slashes := by
    rcases near with rfl | rfl
    · cases hline
    · obtain rfl : trailing.toList = line := Option.some.inj hline
      have found : cut? Directive.marker trailing.toList =
          some ("switch v \x7b // ".toList, " allow(long-chain)".toList) := by decide
      rw [found] at cut
      obtain ⟨rfl, rfl⟩ := Prod.mk.inj (Option.some.inj cut)
      exact ⟨_, _, trailing_comment, by decide⟩
  first before text after comment _ := by
    obtain ⟨shown, -, hline⟩ := comment.line
    rcases near with rfl | rfl
    · cases hline
    · have whole : trailing.toList = before ++ '/' :: '/' :: shown := Option.some.inj hline
      have clear : ∀ start ∈ trailing.toList.inits,
          ['/', '/'] <+: trailing.toList.drop start.length → ¬ Directive.marker <:+: start := by decide
      refine clear before ((List.mem_inits _ _).mpr ⟨_, whole.symm⟩) ?_
      rw [whole, List.drop_left]
      exact ⟨shown, rfl⟩

theorem suppressed_by_trailing_comment :
    (∀ n, n = 1 - 1 ∨ n = 1 → Undisturbed trailing n) ∧
      ∃ shared, ({} : LongChain).scan repeatedTwice = some shared ∧
        ({} : LongChain).finding (.ofSpan "a.go" ⟨0, 6, 1, 1⟩) (chainText shared) ∉
          ({} : LongChain).outcome ⟨trailing, "a.go"⟩ repeatedTwice ⟨0, 6, 1, 1⟩ := by
  have reportable : (({} : LongChain).scan repeatedTwice).isSome = true := by decide
  obtain ⟨shared, reportable⟩ := Option.isSome_iff_exists.mp reportable
  refine ⟨trailing_undisturbed, shared, reportable, ?_⟩
  have suppressed := suppressed_iff {} ⟨trailing, "a.go"⟩ repeatedTwice ⟨0, 6, 1, 1⟩ shared reportable
    trailing_undisturbed
  exact suppressed.mpr ⟨1, _, _, ⟨["long-chain"], none⟩, .inr rfl, trailing_comment, by decide, by decide⟩

def overlookedHead : String := "package p\n\nfunc f(v int) \x7b\n"

def overlookedRest : String :=
  " chainlint: allow(long-chain)\n\tswitch v \x7b\n\tcase a.b.c.d:\n\tcase a.b.c.e:\n\t\x7d\n\x7d\n"

def overlookedCode : String := "\ts := \x22chainlint:\x22 "

/-- The marker stands in a string before the comment, too. -/
def overlooked : String := overlookedHead ++ (overlookedCode ++ ("//" ++ overlookedRest))

theorem overlooked_comment :
    LineComment overlooked 4 overlookedCode.toList " chainlint: allow(long-chain)".toList := by
  have opens : pieces 23 (beginning overlooked) =
      (⟨46, 4, 20⟩, '/' :: '/' :: overlookedRest.toList) := by decide +kernel
  refine ⟨overlookedHead.toList, overlookedRest.toList, ⟨46, 4, 20⟩, ?_, .inr (by decide), by decide,
    ?_, rfl, by decide⟩
  · rw [overlooked, String.toList_append, String.toList_append, String.toList_append]
    rfl
  rw [← opens]
  exact passes_pieces 23 _

/-- A comment that allows the finding on the next line, and the finding all the same. -/
theorem finding_behind_overlooked_comment :
    (∃ file, Go.parse overlooked = .ok file ∧
      (({} : LongChain).check ⟨overlooked, "a.go"⟩ file).map (fun v => (v.message, v.location.line)) =
        [(message "a.b.c", 5)]) ∧
      ∃ before text d, LineComment overlooked 4 before text ∧ Directive.ofComment text = some d ∧
        d.names name = true := by
  constructor
  · have run : (Go.parse overlooked).toOption.map (fun file =>
        (({} : LongChain).check ⟨overlooked, "a.go"⟩ file).map fun v =>
          (v.message, v.location.line)) = some [(message "a.b.c", 5)] := by decide +kernel
    obtain ⟨file, parsed, found⟩ := Option.map_eq_some_iff.mp run
    refine ⟨file, ?_, found⟩
    cases outcome : Go.parse overlooked with
    | ok file' =>
      rw [outcome] at parsed
      exact congrArg Except.ok (Option.some.inj parsed)
    | error e =>
      rw [outcome] at parsed
      cases parsed
  · exact ⟨_, _, ⟨["long-chain"], none⟩, overlooked_comment, by decide, by decide⟩

end LongChain

end SwitchLint
