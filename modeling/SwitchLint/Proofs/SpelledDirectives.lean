import Mathlib.Data.List.Forall2
import SwitchLint.Proofs.Suppression

/-!
How a directive is spelled, and that nothing else is read as one. Behind two slashes and the marker stand
the names of rules in brackets, with commas between them, and a reason in quotes may follow; white space
may stand around each of these. What is read is a little more than what is meant to be written: between
the commas a name may be missing, and a reason that is not in quotes is none.
-/

namespace SwitchLint.Directive

open Text

/-- White space, or nothing. -/
def Blanks (cs : List Char) : Prop := ∀ c ∈ cs, isBlank c = true

instance (cs : List Char) : Decidable (Blanks cs) := decidable_of_iff (cs.all isBlank = true) List.all_eq_true

/-- A line in parts: what stands before the slashes, before and behind the marker, between the commas,
and behind the bracket. -/
structure Spelling where
  lead : List Char
  gap : List Char
  inset : List Char
  pieces : List (List Char)
  tail : List Char
  unmarked : ¬ marker <:+: lead
  blankGap : Blanks gap
  blankInset : Blanks inset

def opening : List Char := "allow(".toList

/-- The names in their brackets, and what follows them. -/
def bracketed (names tail : List Char) : List Char := opening ++ (names ++ ')' :: tail)

def Spelling.line (s : Spelling) : List Char :=
  s.lead ++ '/' :: '/' ::
    (s.gap ++ (marker ++ (s.inset ++ bracketed ([','].intercalate s.pieces) s.tail)))

/-- What a rule may be called in a directive. -/
structure IsRuleName (name : List Char) : Prop where
  nonempty : name ≠ []
  start : ∀ c ∈ name.head?, isBlank c = false
  stop : ∀ c ∈ name.getLast?, isBlank c = false
  comma : ',' ∉ name
  bracket : ')' ∉ name

theorem isRuleName_iff (name : List Char) : IsRuleName name ↔ name ≠ [] ∧
    name.head?.any isBlank = false ∧ name.getLast?.any isBlank = false ∧ ',' ∉ name ∧ ')' ∉ name := by
  have dense (o : Option Char) : o.any isBlank = false ↔ ∀ c ∈ o, isBlank c = false := by
    cases o <;> simp
  rw [dense, dense]
  exact ⟨fun ⟨long, start, stop, comma, bracket⟩ => ⟨long, start, stop, comma, bracket⟩,
    fun ⟨long, start, stop, comma, bracket⟩ => ⟨long, start, stop, comma, bracket⟩⟩

instance (name : List Char) : Decidable (IsRuleName name) := decidable_of_iff _ (isRuleName_iff name).symm

/-- The piece is the name of a rule, with white space around it. -/
def Names (piece : List Char) (name : String) : Prop :=
  IsRuleName name.toList ∧ ∃ left right, Blanks left ∧ Blanks right ∧
    piece = left ++ (name.toList ++ right)

/-- The names in pieces, some of which may be nothing but white space. -/
inductive Lists : List (List Char) → List String → Prop where
  | nil : Lists [] []
  | name {piece pieces name names} : Names piece name → Lists pieces names →
      Lists (piece :: pieces) (name :: names)
  | blank {piece pieces names} : Blanks piece → Lists pieces names → Lists (piece :: pieces) names

/-- What follows the bracket is a reason in quotes, and then anything. -/
def Gives (tail : List Char) (reason : String) : Prop :=
  ∃ gap inset rest, Blanks gap ∧ Blanks inset ∧ '\x22' ∉ reason.toList ∧
    tail = gap ++ ("reason=".toList ++ (inset ++ '\x22' :: (reason.toList ++ '\x22' :: rest)))

/-- The line names these rules and gives this reason, as is meant to be written. -/
def Spelling.Writes (s : Spelling) (names : List String) (reason : Option String) : Prop :=
  names ≠ [] ∧ List.Forall₂ Names s.pieces names ∧
    match reason with
    | some r => Gives s.tail r
    | none => ¬ "reason=".toList <+: trimStart s.tail

/-- The line can be read as naming these rules and giving this reason. -/
def Spelling.Reads (s : Spelling) (names : List String) (reason : Option String) : Prop :=
  names ≠ [] ∧ Lists s.pieces names ∧ ∀ r, reason = some r ↔ Gives s.tail r

theorem blank_comma : isBlank ',' = false := by decide

theorem blank_bracket : isBlank ')' = false := by decide

theorem blank_quote : isBlank '\x22' = false := by decide

theorem Blanks.not_mem {cs : List Char} (blank : Blanks cs) {c : Char} (dense : isBlank c = false) :
    c ∉ cs := by
  intro member
  rw [blank c member] at dense
  cases dense

/-! ### The names -/

theorem parseRules_blanks {blanks : List Char} (blank : Blanks blanks) (text : List Char) :
    parseRules (blanks ++ text) = parseRules text := by
  obtain ⟨piece, pieces, whole, behind⟩ := split_append_of_not_mem (blank.not_mem blank_comma) text
  rw [parseRules, parseRules, whole, behind, List.map_cons, List.map_cons, trim_blanks blank]

/-- A piece is white space, or its text without the white space around it is a name. -/
theorem blank_or_names {piece : List Char} (comma : ',' ∉ piece) (bracket : ')' ∉ piece) :
    (trim piece = [] ∧ Blanks piece) ∨ (trim piece ≠ [] ∧ Names piece (String.ofList (trim piece))) := by
  obtain ⟨left, right, whole, blank, blank'⟩ := trim_eq piece
  by_cases none : trim piece = []
  · refine .inl ⟨none, fun c member => ?_⟩
    rw [whole, none, List.nil_append, List.mem_append] at member
    exact member.elim (blank c) (blank' c)
  · have inside {c : Char} (absent : c ∉ piece) : c ∉ trim piece := by
      intro member
      rw [whole] at absent
      exact absent (List.mem_append_right _ (List.mem_append_left _ member))
    obtain ⟨start, stop⟩ := trim_tight piece
    refine .inr ⟨none, ?_, left, right, blank, blank', ?_⟩
    · rw [String.toList_ofList]
      exact ⟨none, start, stop, inside comma, inside bracket⟩
    · rw [String.toList_ofList]
      exact whole

theorem trim_of_blanks {piece : List Char} (blank : Blanks piece) : trim piece = [] := by
  have same := trim_blanks blank []
  rwa [List.append_nil] at same

theorem trim_of_names {piece : List Char} {name : String} (named : Names piece name) :
    trim piece = name.toList := by
  obtain ⟨proper, left, right, blank, blank', rfl⟩ := named
  rw [trim_blanks blank, trim_append_blanks _ blank', trim_of_tight proper.start proper.stop]

theorem Lists.plain {pieces : List (List Char)} {names : List String} (lists : Lists pieces names) :
    ∀ piece ∈ pieces, ',' ∉ piece ∧ ')' ∉ piece := by
  induction lists with
  | nil => exact fun piece member => absurd member List.not_mem_nil
  | name named _ ih =>
    obtain ⟨proper, left, right, blank, blank', rfl⟩ := named
    refine List.forall_mem_cons.mpr ⟨?_, ih⟩
    simp only [List.mem_append, not_or]
    exact ⟨⟨blank.not_mem blank_comma, proper.comma, blank'.not_mem blank_comma⟩,
      blank.not_mem blank_bracket, proper.bracket, blank'.not_mem blank_bracket⟩
  | blank blank _ ih =>
    exact List.forall_mem_cons.mpr ⟨⟨blank.not_mem blank_comma, blank.not_mem blank_bracket⟩, ih⟩

theorem Lists.of_names {pieces : List (List Char)} {names : List String}
    (named : List.Forall₂ Names pieces names) : Lists pieces names := by
  induction named with
  | nil => exact .nil
  | cons first _ ih => exact .name first ih

theorem trimmed_iff_lists {pieces : List (List Char)} (names : List String)
    (plain : ∀ piece ∈ pieces, ',' ∉ piece ∧ ')' ∉ piece) :
    ((pieces.map trim).filter (· ≠ [])).map String.ofList = names ↔ Lists pieces names := by
  constructor
  · rintro rfl
    -- Each piece is read by itself: as a name, or as nothing.
    induction pieces with
    | nil => exact .nil
    | cons piece pieces ih =>
      obtain ⟨⟨comma, bracket⟩, others⟩ := List.forall_mem_cons.mp plain
      rcases blank_or_names comma bracket with ⟨none, blank⟩ | ⟨some, named⟩
      · simpa [none] using Lists.blank blank (ih others)
      · simpa [some] using Lists.name named (ih others)
  · intro lists
    induction lists with
    | nil => rfl
    | name named _ ih =>
      have rest := ih fun piece member => plain piece (List.mem_cons_of_mem _ member)
      have nonempty := named.1.nonempty
      rw [List.map_cons, trim_of_names named, List.filter_cons_of_pos (by simpa using nonempty),
        List.map_cons, String.ofList_toList, rest]
    | blank blank _ ih =>
      have rest := ih fun piece member => plain piece (List.mem_cons_of_mem _ member)
      rw [List.map_cons, trim_of_blanks blank, List.filter_cons_of_neg (by simp), rest]

theorem parseRules_iff {pieces : List (List Char)} (some : pieces ≠ []) (names : List String)
    (plain : ∀ piece ∈ pieces, ',' ∉ piece ∧ ')' ∉ piece) :
    parseRules ([','].intercalate pieces) = names ↔ Lists pieces names := by
  rw [parseRules, split_intercalate some fun piece member => (plain piece member).1]
  exact trimmed_iff_lists names plain

/-! ### The reason -/

/-- Trimming stops at the beginning of a word, and behind it at the last character that is marked out. -/
theorem trim_around {gap : List Char} (blank : Blanks gap) {c d : Char} (start : isBlank c = false)
    (stop : isBlank d = false) (body tail : List Char) :
    trim (gap ++ c :: (body ++ d :: tail)) = c :: (body ++ d :: trimEnd tail) := by
  rw [trim_blanks blank, trim, trimStart_cons start, ← List.cons_append, trimEnd_append _ stop,
    List.cons_append]

theorem parseReason_iff (tail : List Char) (reason : String) :
    parseReason tail = some reason ↔ Gives tail reason := by
  simp only [parseReason, Option.bind_eq_bind, Option.bind_eq_some_iff, after_eq_some_iff,
    Option.pure_def, Option.some.injEq]
  constructor
  · rintro ⟨rest, opened, quoted, started, ⟨inner, behind⟩, cut, rfl⟩
    obtain ⟨rfl, unquoted⟩ := (cut_char_iff _ _ _ _).mp cut
    obtain ⟨gap, right, whole, blank, -⟩ := trim_eq tail
    obtain ⟨inset, right', whole', blank', -⟩ := trim_eq rest
    refine ⟨gap, inset, behind ++ (right' ++ right), blank, blank', ?_, ?_⟩
    · rwa [String.toList_ofList]
    · rw [opened, whole', started] at whole
      simpa using whole
  · rintro ⟨gap, inset, rest, blank, blank', unquoted, rfl⟩
    have opened := trim_around (c := 'r') blank (by decide) blank_quote
      ("eason=".toList ++ (inset ++ '\x22' :: reason.toList)) rest
    have started := trim_around blank' blank_quote blank_quote reason.toList (trimEnd rest)
    refine ⟨inset ++ '\x22' :: (reason.toList ++ '\x22' :: trimEnd rest), ?_,
      reason.toList ++ '\x22' :: trimEnd (trimEnd rest), started, (reason.toList, _),
      (cut_char_iff _ _ _ _).mpr ⟨rfl, unquoted⟩, String.ofList_toList⟩
    simpa using opened

theorem Gives.begins {tail : List Char} {reason : String} (gives : Gives tail reason) :
    "reason=".toList <+: trimStart tail := by
  obtain ⟨gap, inset, rest, blank, -, -, rfl⟩ := gives
  rw [trimStart_blanks blank]
  exact List.prefix_append _ _

/-! ### The brackets -/

theorem parseReason_trimEnd (tail : List Char) : parseReason (trimEnd tail) = parseReason tail := by
  obtain ⟨blanks, whole, blank⟩ := trimEnd_eq tail
  have same := trim_append_blanks (trimEnd tail) blank
  rw [← whole] at same
  rw [parseReason, parseReason, same]

theorem parseRules_trimStart (names : List Char) : parseRules (trimStart names) = parseRules names := by
  obtain ⟨blanks, whole, blank⟩ := trimStart_eq names
  have same := parseRules_blanks blank (trimStart names)
  rw [← whole] at same
  exact same.symm

theorem behindMarker_iff {inset names : List Char} (blank : Blanks inset) (closed : ')' ∉ names)
    (tail : List Char) (d : Directive) : behindMarker (inset ++ bracketed names tail) = some d ↔
      parseRules names ≠ [] ∧ d = ⟨parseRules names, parseReason tail⟩ := by
  have opened : after? "allow(".toList (trim (inset ++ bracketed names tail)) =
      some (names ++ ')' :: trimEnd tail) := by
    have word : opening = 'a' :: "llow(".toList := by decide
    have around := trim_around (c := 'a') blank (by decide) blank_bracket ("llow(".toList ++ names) tail
    refine (after_eq_some_iff opening _ _).mpr ?_
    rw [bracketed, word]
    simpa only [List.cons_append, List.append_assoc] using around
  have trimmed : trim (names ++ ')' :: trimEnd tail) = trimStart names ++ ')' :: trimEnd (trimEnd tail) := by
    rw [trim, trimStart_append _ blank_bracket, trimEnd_append _ blank_bracket]
  have cut : cut? [')'] (trim (names ++ ')' :: trimEnd tail)) =
      some (trimStart names, trimEnd (trimEnd tail)) :=
    (cut_char_iff _ _ _ _).mpr ⟨trimmed, fun member => closed ((List.dropWhile_suffix _).mem member)⟩
  simp only [behindMarker, opened, cut, Option.bind_eq_bind, Option.bind_some, parseRules_trimStart,
    parseReason_trimEnd, Option.bind_eq_some_iff, Option.guard_eq_some', Option.pure_def,
    Option.some.injEq, exists_const]
  exact and_congr_right fun _ => eq_comm

theorem bracketed_of_behindMarker {after : List Char} {d : Directive}
    (read : behindMarker after = some d) : ∃ inset names tail, Blanks inset ∧ ')' ∉ names ∧
      after = inset ++ bracketed names tail := by
  simp only [behindMarker, Option.bind_eq_bind, Option.bind_eq_some_iff, after_eq_some_iff] at read
  obtain ⟨inner, opened, ⟨names, rest⟩, cut, -⟩ := read
  obtain ⟨closed, unclosed⟩ := (cut_char_iff _ _ _ _).mp cut
  obtain ⟨inset, right, whole, blank, -⟩ := trim_eq after
  obtain ⟨left, right', whole', blank', -⟩ := trim_eq inner
  refine ⟨inset, left ++ names, rest ++ (right' ++ right), blank, ?_, ?_⟩
  · rw [List.mem_append, not_or]
    exact ⟨Blanks.not_mem blank' blank_bracket, unclosed⟩
  · -- The line is trimmed twice: what goes the second time belongs to the names and to the tail.
    rw [opened, whole', closed] at whole
    simp only [List.append_assoc, List.cons_append] at whole
    rw [bracketed, List.append_assoc]
    exact whole

/-! ### Whole lines -/

theorem parse_line_iff (s : Spelling) (closed : ∀ piece ∈ s.pieces, ')' ∉ piece) (d : Directive) :
    parse s.line = some d ↔ parseRules ([','].intercalate s.pieces) ≠ [] ∧
      d = ⟨parseRules ([','].intercalate s.pieces), parseReason s.tail⟩ := by
  have cut : cut? marker s.line = some (s.lead ++ '/' :: '/' :: s.gap, _) :=
    cut_behind_slashes s.blankGap s.unmarked
  have unclosed : ')' ∉ [','].intercalate s.pieces := by
    rw [mem_intercalate (by decide)]
    rintro ⟨piece, member, inside⟩
    exact closed piece member inside
  rw [parse_eq_some_iff, ← behindMarker_iff s.blankInset unclosed]
  constructor
  · rintro ⟨lead, after, cut', -, read⟩
    rw [cut] at cut'
    obtain ⟨-, rfl⟩ := Prod.mk.inj (Option.some.inj cut')
    exact read
  · exact fun read => ⟨_, _, cut, ⟨s.lead, (slashes_end s.lead s.blankGap).symm⟩, read⟩

/-- Whatever is read as a directive is spelled as one. -/
theorem spelled_of_parse {line : List Char} {d : Directive} (read : parse line = some d) :
    ∃ s : Spelling, s.line = line ∧ s.pieces ≠ [] ∧ ∀ piece ∈ s.pieces, ',' ∉ piece ∧ ')' ∉ piece := by
  obtain ⟨before, after, cut, ⟨lead, slashes⟩, inner⟩ := (parse_eq_some_iff line d).mp read
  obtain ⟨inset, names, tail, blankInset, closed, rfl⟩ := bracketed_of_behindMarker inner
  obtain ⟨gap, whole, blankGap⟩ := trimEnd_eq before
  obtain ⟨rfl, first⟩ := (cut_eq_some_iff marker line before _).mp cut
  rw [← slashes] at whole
  subst whole
  have unmarked : ¬ marker <:+: lead := by
    rintro ⟨start, rest, rfl⟩
    -- The line was cut at the first marker, and this one would stand before it.
    have earlier := first start _ (by simp only [List.append_assoc]; rfl)
    simp only [List.length_append, List.length_cons] at earlier
    omega
  refine ⟨⟨lead, gap, inset, split ',' names, tail, unmarked, blankGap, blankInset⟩, ?_,
    split_nonempty ',' names, fun piece member => ⟨not_mem_of_mem_split member, fun inside => closed ?_⟩⟩
  · simp [Spelling.line, intercalate_split]
  · rw [← intercalate_split ',' names, mem_intercalate (by decide)]
    exact ⟨piece, member, inside⟩

/-- What is meant to be written can be read so. -/
theorem Spelling.Writes.reads {s : Spelling} {names : List String} {reason : Option String}
    (written : s.Writes names reason) : s.Reads names reason := by
  obtain ⟨some, named, ends⟩ := written
  refine ⟨some, .of_names named, fun r => ?_⟩
  cases reason with
  | none =>
    constructor
    · intro wrong
      cases wrong
    · exact fun gives => absurd gives.begins ends
  | some own =>
    rw [← parseReason_iff, (parseReason_iff _ _).mpr ends]

/-- A directive that is spelled as is meant is read as what it says, and whatever is read as a directive
is a spelling of it. -/
theorem parse_iff_spelled (names : List String) (reason : Option String) :
    (∀ s : Spelling, s.Writes names reason → parse s.line = some ⟨names, reason⟩) ∧
    ∀ line, parse line = some ⟨names, reason⟩ ↔ ∃ s : Spelling, s.line = line ∧ s.Reads names reason := by
  have reads (s : Spelling) (readable : s.Reads names reason) : parse s.line = some ⟨names, reason⟩ := by
    obtain ⟨some, lists, ends⟩ := readable
    have plain := lists.plain
    have pieces : s.pieces ≠ [] := by
      intro none
      rw [none] at lists
      cases lists
      exact some rfl
    have rules := (parseRules_iff pieces names plain).mpr lists
    have given : parseReason s.tail = reason :=
      Option.ext fun r => (parseReason_iff s.tail r).trans (ends r).symm
    exact (parse_line_iff s (fun piece member => (plain piece member).2) _).mpr
      ⟨rules ▸ some, by rw [rules, given]⟩
  refine ⟨fun s written => reads s written.reads, fun line => ⟨fun read => ?_, ?_⟩⟩
  · obtain ⟨s, rfl, pieces, plain⟩ := spelled_of_parse read
    obtain ⟨some, same⟩ := (parse_line_iff s (fun piece member => (plain piece member).2) _).mp read
    obtain ⟨rules, given⟩ := Directive.mk.inj same
    refine ⟨s, rfl, rules ▸ some, (parseRules_iff pieces names plain).mp rules.symm, fun r => ?_⟩
    rw [given, parseReason_iff]
  · rintro ⟨s, rfl, readable⟩
    exact reads s readable

/-- `switch v \x7b //　chainlint: allow( long-chain ,all) reason="table" and more` -/
def spelledWithReason : Spelling where
  lead := "switch v \x7b ".toList
  gap := ['\u3000']
  inset := [' ']
  pieces := [" long-chain ".toList, "all".toList]
  tail := " reason=\x22table\x22 and more".toList
  unmarked := by decide
  blankGap := by decide
  blankInset := by decide

theorem parse_iff_spelled_with_reason : spelledWithReason.Writes ["long-chain", "all"] (some "table") ∧
    parse spelledWithReason.line = some ⟨["long-chain", "all"], some "table"⟩ := by
  have first : Names " long-chain ".toList "long-chain" :=
    ⟨by decide, [' '], [' '], by decide, by decide, rfl⟩
  have second : Names "all".toList "all" :=
    ⟨by decide, [], [], by decide, by decide, rfl⟩
  have written : spelledWithReason.Writes ["long-chain", "all"] (some "table") :=
    ⟨by decide, .cons first (.cons second .nil), [' '], [], " and more".toList, by decide, by decide,
      by decide, rfl⟩
  exact ⟨written, (parse_iff_spelled _ _).1 _ written⟩

/-- A line with one closing bracket has its names before it, and its tail behind it. -/
theorem Spelling.line_cut {s : Spelling} {before tail : List Char} (first : ')' ∉ before)
    (only : ')' ∉ tail) (whole : before ++ ')' :: tail = s.line) :
    [','].intercalate s.pieces <:+ before ∧ s.tail = tail := by
  have parts : s.line = s.lead ++ '/' :: '/' :: (s.gap ++ (marker ++ (s.inset ++ (opening ++
      [','].intercalate s.pieces)))) ++ ')' :: s.tail := by
    simp [line, bracketed]
  rw [parts] at whole
  obtain ⟨rfl, -, rfl⟩ := (List.append_cons_inj_of_notMem first only).mp whole
  exact ⟨⟨s.lead ++ '/' :: '/' :: (s.gap ++ (marker ++ (s.inset ++ opening))), by simp⟩, rfl⟩

theorem Names.not_behind_comma {piece text : List Char} {name : String} (named : Names piece name) :
    ¬ piece <:+ text ++ [','] := by
  intro ends
  have plain := (Lists.name named .nil).plain piece List.mem_cons_self
  rcases List.suffix_concat_iff.mp ends with none | ⟨inner, rfl, -⟩
  · have same := trim_of_names named
    rw [none] at same
    exact named.1.nonempty same.symm
  · exact plain.1 (by simp)

/-- A name is missing behind a comma, or a reason is not in quotes, and a directive is read all the
same. -/
theorem read_beyond_what_is_written :
    (parse "// chainlint: allow(long-chain,)".toList = some ⟨["long-chain"], none⟩ ∧
      ¬ ∃ s : Spelling, s.line = "// chainlint: allow(long-chain,)".toList ∧
        s.Writes ["long-chain"] none) ∧
    parse "// chainlint: allow(long-chain) reason=table".toList = some ⟨["long-chain"], none⟩ ∧
      ¬ ∃ s : Spelling, s.line = "// chainlint: allow(long-chain) reason=table".toList ∧
        s.Writes ["long-chain"] none := by
  refine ⟨⟨by decide, ?_⟩, by decide, ?_⟩
  · rintro ⟨s, whole, -, named, -⟩
    have before : ')' ∉ "// chainlint: allow(long-chain".toList ++ [','] := by decide
    obtain ⟨ends, -⟩ := Spelling.line_cut before List.not_mem_nil whole.symm
    obtain ⟨piece, others, named, none, pieces⟩ := List.forall₂_cons_right_iff.mp named
    rw [pieces, List.forall₂_nil_right_iff.mp none, List.intercalate_singleton] at ends
    exact named.not_behind_comma ends
  · rintro ⟨s, whole, -, -, ends⟩
    have before : ')' ∉ "// chainlint: allow(long-chain".toList := by decide
    have behind : ')' ∉ " reason=table".toList := by decide
    obtain ⟨-, tail⟩ := Spelling.line_cut before behind whole.symm
    rw [tail] at ends
    exact ends (by decide)

end SwitchLint.Directive
