import Mathlib.Algebra.Group.Int.Defs
import Mathlib.Algebra.Group.Nat.Defs
import Mathlib.Data.List.DropRight
import SwitchLint.Json.Printing
import SwitchLint.Json.Reading

/-!
What is written as JSON is read back. Every reader is given the text of one thing with more text behind it,
and stops where that thing ends: a string at its quote, an array or object at its bracket, and a number
where no digit, point or exponent carries it on.
-/

namespace SwitchLint

namespace JsonReader

open JsonValue

/-! ### Blanks -/

theorem skip_of_solid {c : Char} (solid : isBlank c = false) (cs : List Char) :
    skip (c :: cs) = c :: cs := by
  simp [skip, solid]

theorem skip_skip (cs : List Char) : skip (skip cs) = skip cs :=
  List.dropWhile_idempotent isBlank cs

theorem skip_newline (depth : Nat) (cs : List Char) : skip (newline depth ++ cs) = skip cs := by
  have blank : ∀ c ∈ newline depth, isBlank c = true := by
    intro c hc
    rcases List.mem_cons.mp hc with rfl | hc
    · rfl
    · rw [List.eq_of_mem_replicate hc]
      rfl
  exact List.dropWhile_append_of_pos blank

/-- A text is no shorter than the list that it tells: the bounds of the readers suffice. -/
theorem length_le_flatMap {α : Type} {write : α → List Char} (as : List α)
    (filled : ∀ a, write a ≠ []) : as.length ≤ (as.flatMap write).length := by
  induction as with
  | nil => simp
  | cons a as ih =>
    have first := List.length_pos_iff.mpr (filled a)
    simp only [List.flatMap_cons, List.length_append, List.length_cons]
    omega

/-! ### Strings -/

theorem hexValue_hexDigit : ∀ n < 16, hexValue? (hexDigit n) = some n := by decide

theorem codePoint_of_control {c : Char} (control : c.toNat < 0x20) (rest : List Char) :
    codePoint ('0' :: '0' :: hexDigit (c.toNat / 16) :: hexDigit (c.toNat % 16) :: rest) =
      some (c, rest) := by
  have zero : hexValue? '0' = some 0 := rfl
  have high := hexValue_hexDigit (c.toNat / 16) (by omega)
  have low := hexValue_hexDigit (c.toNat % 16) (by omega)
  have unit : codeUnit ('0' :: '0' :: hexDigit (c.toNat / 16) :: hexDigit (c.toNat % 16) :: rest) =
      some (c.toNat, rest) := by
    simp [codeUnit, zero, high, low]
    omega
  have noTrail : ¬ (0xdc00 ≤ c.toNat ∧ c.toNat < 0xe000) := by omega
  have noLead : ¬ (0xd800 ≤ c.toNat ∧ c.toNat < 0xdc00) := by omega
  simp only [codePoint, unit, Option.bind_eq_bind, Option.bind_some, if_neg noTrail, if_neg noLead,
    Char.ofNat_toNat]
  rfl

/-- What is written for a character does not begin like the end of the string, and is read back. -/
theorem character_of_written (c : Char) : ∃ first others, stringChar c = first :: others ∧
    first ≠ '\x22' ∧ ∀ rest, character first (others ++ rest) = some (c, rest) := by
  unfold stringChar
  repeat' split
  -- The escapes of a single mark or letter are read by computation.
  all_goals try subst_vars
  all_goals try exact ⟨'\\', _, rfl, by decide, fun _ => rfl⟩
  · exact ⟨'\\', _, rfl, by decide, codePoint_of_control ‹_›⟩
  · refine ⟨c, [], rfl, ‹_›, fun rest => ?_⟩
    simp_all [character]

theorem stringChar_ne_nil (c : Char) : stringChar c ≠ [] := by
  obtain ⟨first, others, written, -⟩ := character_of_written c
  simp [written]

theorem characters_of_written (s rest : List Char) (bound : Nat) (enough : s.length ≤ bound) :
    characters bound (s.flatMap stringChar ++ '\x22' :: rest) = some (s, rest) := by
  induction s generalizing bound with
  | nil => simp [characters.eq_def]
  | cons c s ih =>
    obtain ⟨bound, rfl⟩ : ∃ b, bound = b + 1 := ⟨bound - 1, by simp at enough; omega⟩
    obtain ⟨first, others, written, notQuote, read⟩ := character_of_written c
    have tail := ih bound (by simpa using enough)
    simp [written, characters, notQuote, read, tail]

theorem string_of_written (s : String) (rest : List Char) :
    string (s.toList.flatMap stringChar ++ '\x22' :: rest) = some (s, rest) := by
  have enough : s.toList.length ≤ (s.toList.flatMap stringChar ++ '\x22' :: rest).length := by
    have written : s.toList.length ≤ (s.toList.flatMap stringChar).length :=
      length_le_flatMap s.toList stringChar_ne_nil
    rw [List.length_append]
    omega
  rw [string, characters_of_written s.toList rest _ enough]
  simp

/-! ### Numbers -/

/-- The text does not carry a number on. -/
def Closes (rest : List Char) : Prop :=
  ∀ c ∈ rest.head?, c.isDigit = false ∧ c ≠ '.' ∧ c ≠ 'e' ∧ c ≠ 'E'

theorem closes_nil : Closes [] := by simp [Closes]

theorem closes_comma (cs : List Char) : Closes (',' :: cs) := by
  intro c hc
  obtain rfl : ',' = c := by simpa using hc
  decide

theorem closes_newline (depth : Nat) (cs : List Char) : Closes (newline depth ++ cs) := by
  intro c hc
  obtain rfl : '\n' = c := by simpa [newline] using hc
  decide

theorem toDigits_head {n : Nat} (positive : 0 < n) : (Nat.toDigits 10 n).head? ≠ some '0' := by
  induction n using Nat.strong_induction_on with
  | h n ih =>
    by_cases small : n < 10
    · rw [Nat.toDigits_of_lt_base small]
      have nonzero : ∀ m < 10, 0 < m → Nat.digitChar m ≠ '0' := by decide
      simpa using nonzero n small positive
    · rw [Nat.toDigits_of_base_le (by decide) (by omega), List.head?_append]
      have before := ih (n / 10) (by omega) (by omega)
      cases h : (Nat.toDigits 10 (n / 10)).head? with
      | none => exact absurd (List.head?_eq_none_iff.mp h) Nat.toDigits_ne_nil
      | some d => simpa [h] using before

theorem digits_of_written (n : Nat) {rest : List Char} (closes : Closes rest) :
    digits (Nat.toDigits 10 n ++ rest) = some (Nat.toDigits 10 n, rest) := by
  have all : ∀ d ∈ Nat.toDigits 10 n, Char.isDigit d = true := fun d hd =>
    Nat.isDigit_of_mem_toDigits (by decide) (by decide) hd
  have stop : rest.takeWhile Char.isDigit = [] ∧ rest.dropWhile Char.isDigit = rest := by
    cases rest with
    | nil => exact ⟨rfl, rfl⟩
    | cons c cs => simp [(closes c rfl).1]
  rw [digits, List.takeWhile_append_of_pos all, List.dropWhile_append_of_pos all, stop.1, stop.2,
    List.append_nil]
  cases h : Nat.toDigits 10 n with
  | nil => exact absurd h Nat.toDigits_ne_nil
  | cons d ds => rfl

theorem whole_of_written (n : Nat) {rest : List Char} (closes : Closes rest) :
    whole (Nat.toDigits 10 n ++ rest) = some (Nat.toDigits 10 n, rest) := by
  have plain : ¬ ((Nat.toDigits 10 n).head? = some '0' ∧ Nat.toDigits 10 n ≠ ['0']) := by
    rintro ⟨zero, more⟩
    rcases Nat.eq_zero_or_pos n with rfl | positive
    · exact more rfl
    · exact toDigits_head positive zero
  simp [whole, digits_of_written n closes, plain]

theorem magnitude_of_written (minus : Bool) (n : Nat) (fits : isMachineInteger minus n = true)
    {rest : List Char} (closes : Closes rest) : magnitude minus (Nat.toDigits 10 n ++ rest) =
      some (.integer (if minus then -(n : Int) else n), rest) := by
  -- What closes the number is neither a point nor the mark of an exponent.
  have after : fraction rest = some ([], rest) := by
    unfold fraction
    split
    · exact absurd rfl (closes '.' rfl).2.1
    · rfl
  have scale : exponent rest = some (none, rest) := by
    cases rest with
    | nil => rfl
    | cons c cs => simp [exponent, (closes c rfl).2.2]
  have same : ofDigits (Nat.toDigits 10 n) = n := Nat.ofDigitChars_toDigits (by decide) (by decide)
  simp [magnitude, whole_of_written n closes, after, scale, numberOf, same, fits]

theorem toDigits_cons (n : Nat) :
    ∃ d ds, Nat.toDigits 10 n = d :: ds ∧ d.isDigit = true := by
  cases h : Nat.toDigits 10 n with
  | nil => exact absurd h Nat.toDigits_ne_nil
  | cons d ds =>
    have member : d ∈ Nat.toDigits 10 n := by simp [h]
    exact ⟨d, ds, rfl, Nat.isDigit_of_mem_toDigits (by decide) (by decide) member⟩

theorem number_unsigned {d : Char} (digit : d.isDigit = true) (cs : List Char) :
    number (d :: cs) = magnitude false (d :: cs) := by
  unfold number
  split
  next minus =>
    obtain rfl : d = '-' := (List.cons.inj minus).1
    cases digit
  next => rfl

theorem text_of_natural (n : Nat) : (toString (Int.ofNat n)).toList = Nat.toDigits 10 n :=
  Nat.toList_repr

theorem text_of_negative (n : Nat) :
    (toString (Int.negSucc n)).toList = '-' :: Nat.toDigits 10 (n + 1) := by
  change ("-" ++ (n + 1).repr).toList = _
  simp [Nat.toList_repr]

theorem number_of_written (i : Int) (low : -2 ^ 63 ≤ i) (high : i < 2 ^ 64) {rest : List Char}
    (closes : Closes rest) : number ((toString i).toList ++ rest) = some (.integer i, rest) := by
  cases i with
  | ofNat n =>
    have fits : isMachineInteger false n = true := by
      have below : n < 2 ^ 64 := by
        rw [Int.ofNat_eq_natCast] at high
        omega
      simpa [isMachineInteger] using below
    obtain ⟨d, ds, digits, digit⟩ := toDigits_cons n
    have unsigned : number (Nat.toDigits 10 n ++ rest) = magnitude false (Nat.toDigits 10 n ++ rest) := by
      rw [digits]
      exact number_unsigned digit (ds ++ rest)
    rw [text_of_natural, unsigned, magnitude_of_written false n fits closes]
    rfl
  | negSucc n =>
    have fits : isMachineInteger true (n + 1) = true := by
      simp [isMachineInteger]
      omega
    rw [text_of_negative, List.cons_append]
    change magnitude true _ = _
    rw [magnitude_of_written true (n + 1) fits closes]
    rfl

/-! ### Arrays and objects -/

section Brackets

variable {α : Type} {one : JsonReader α} {write : α → List Char} {close : Char} {depth : Nat}

/-- The text is read as `a`, up to its end, whatever closes it. -/
def Reads (one : JsonReader α) (text : List Char) (a : α) : Prop :=
  ∀ rest, Closes rest → one (text ++ rest) = some (a, rest)

/-- Blanks in front make no difference. -/
def PassesBlanks (one : JsonReader α) : Prop := ∀ cs, one (skip cs) = one cs

theorem PassesBlanks.newline (blind : PassesBlanks one) (depth : Nat) (cs : List Char) :
    one (newline depth ++ cs) = one cs := by
  rw [← blind, skip_newline, blind]

theorem passesBlanks_elements (blind : PassesBlanks one) (bound : Nat) :
    PassesBlanks (elements one close bound) := by
  intro cs
  cases bound with
  | zero => rfl
  | succ bound => rw [elements, elements, blind]

/-- The elements after the first, each on a line of its own. -/
def later (write : α → List Char) (depth : Nat) (as : List α) : List Char :=
  as.flatMap fun a => ',' :: (newline depth ++ write a)

theorem elements_of_written (blind : PassesBlanks one) (solid : isBlank close = false)
    (notComma : close ≠ ',') (depth outer : Nat) (a : α) (as : List α) (bound : Nat)
    (enough : as.length < bound) (read : ∀ b ∈ a :: as, Reads one (write b) b) (rest : List Char) :
    elements one close bound (write a ++ (later write depth as ++ (newline outer ++ close :: rest))) =
      some (a :: as, rest) := by
  induction as generalizing a bound with
  | nil =>
    obtain ⟨bound, rfl⟩ : ∃ b, bound = b + 1 := ⟨bound - 1, by simp at enough; omega⟩
    have first := read a (by simp) _ (closes_newline outer (close :: rest))
    rw [elements, later, List.flatMap_nil, List.nil_append, first]
    simp [skip_newline, skip_of_solid solid, notComma]
  | cons b as ih =>
    obtain ⟨bound, rfl⟩ : ∃ b, bound = b + 1 := ⟨bound - 1, by simp at enough; omega⟩
    let behind := newline depth ++ (write b ++ (later write depth as ++ (newline outer ++ close :: rest)))
    have shape : later write depth (b :: as) ++ (newline outer ++ close :: rest) = ',' :: behind := by
      simp [later, behind]
    have first := read a (by simp) _ (closes_comma behind)
    have others : elements one close bound behind = some (b :: as, rest) := by
      rw [PassesBlanks.newline (passesBlanks_elements blind bound)]
      exact ih b bound (by simpa using enough) fun c hc => read c (List.mem_cons_of_mem a hc)
    rw [shape, elements, first]
    simp [skip_of_solid (show isBlank ',' = false from rfl), others]

theorem bracketed_of_written (blind : PassesBlanks one) (solid : isBlank close = false)
    (notComma : close ≠ ',') (depth outer : Nat) (a : α) (as : List α)
    (starts : ∃ c cs, write a = c :: cs ∧ isBlank c = false ∧ c ≠ close)
    (read : ∀ b ∈ a :: as, Reads one (write b) b) (rest : List Char) :
    bracketed one close (newline depth ++ (write a ++ (later write depth as ++
      (newline outer ++ close :: rest)))) = some (a :: as, rest) := by
  obtain ⟨c, cs, begins, solidStart, notClose⟩ := starts
  have enough : as.length <
      (cs ++ (later write depth as ++ (newline outer ++ close :: rest))).length + 1 := by
    have written : as.length ≤ (later write depth as).length :=
      length_le_flatMap as (by simp)
    simp only [List.length_append]
    omega
  have whole := elements_of_written blind solid notComma depth outer a as _ enough read rest
  rw [begins, List.cons_append] at whole
  -- The bracket has passed the blanks, so the first element is read from its first character.
  rw [bracketed, skip_newline, begins, List.cons_append, skip_of_solid solidStart]
  simp only [if_neg notClose]
  exact whole

end Brackets

theorem passesBlanks_value (levels : Nat) : PassesBlanks (value levels) := by
  intro cs
  rw [value, value, skip_skip]

theorem passesBlanks_entry (one : JsonReader JsonValue) : PassesBlanks (entry one) := by
  intro cs
  rw [entry, entry, skip_skip]

theorem elementChars_eq (depth : Nat) (vs : List JsonValue) :
    elementChars depth vs = later (chars depth) depth vs := by
  induction vs with
  | nil => rfl
  | cons v vs ih => simp [elementChars, ih, later]

/-- The text of an entry. -/
def entryText (depth : Nat) (e : String × JsonValue) : List Char :=
  stringChars e.1 ++ [':', ' '] ++ chars depth e.2

theorem entryChars_eq (depth : Nat) (es : List (String × JsonValue)) :
    entryChars depth es = later (entryText depth) depth es := by
  induction es with
  | nil => rfl
  | cons e es ih => simp [entryChars, ih, later, entryText]

/-! ### Values -/

/-- The value is nested no deeper than that many levels, its integers have 64 bits, and it holds no other
numbers. -/
inductive Exact : Nat → JsonValue → Prop
  | null (levels : Nat) : Exact levels .null
  | boolean (levels : Nat) (b : Bool) : Exact levels (.boolean b)
  | integer (levels : Nat) {i : Int} : -2 ^ 63 ≤ i → i < 2 ^ 64 → Exact levels (.integer i)
  | string (levels : Nat) (s : String) : Exact levels (.string s)
  | array {levels : Nat} {vs : List JsonValue} : (∀ v ∈ vs, Exact levels v) →
      Exact (levels + 1) (.array vs)
  | object {levels : Nat} {es : List (String × JsonValue)} : (∀ e ∈ es, Exact levels e.2) →
      Exact (levels + 1) (.object es)

/-- What a number may begin with is no blank, and begins nothing else. -/
theorem number_start {c : Char} (start : c = '-' ∨ c.isDigit = true) :
    isBlank c = false ∧ c ≠ '[' ∧ c ≠ ']' ∧ c ≠ '\x7b' ∧ c ≠ '\x22' ∧ c ≠ 'n' ∧ c ≠ 't' ∧ c ≠ 'f' := by
  rcases start with rfl | digit
  · decide
  · have differs (d : Char) (other : d.isDigit = false) : c ≠ d := by
      rintro rfl
      rw [other] at digit
      cases digit
    refine ⟨?_, differs _ rfl, differs _ rfl, differs _ rfl, differs _ rfl, differs _ rfl,
      differs _ rfl, differs _ rfl⟩
    simp [isBlank, differs ' ' rfl, differs '\n' rfl, differs '\r' rfl, differs '\t' rfl]

theorem value_of_number {c : Char} (start : c = '-' ∨ c.isDigit = true) (levels : Nat) (cs : List Char) :
    value levels (c :: cs) = number (c :: cs) := by
  obtain ⟨solid, notArray, -, notObject, notString, notNull, notTrue, notFalse⟩ := number_start start
  rw [value, skip_of_solid solid]
  split
  next h => exact absurd (List.cons.inj h).1 notArray
  next h => exact absurd (List.cons.inj h).1 notObject
  next =>
    unfold scalar
    split
    next h => exact absurd (List.cons.inj h).1 notNull
    next h => exact absurd (List.cons.inj h).1 notTrue
    next h => exact absurd (List.cons.inj h).1 notFalse
    next h => exact absurd (List.cons.inj h).1 notString
    next => rfl

theorem integer_starts (i : Int) :
    ∃ c cs, (toString i).toList = c :: cs ∧ (c = '-' ∨ c.isDigit = true) := by
  cases i with
  | ofNat n =>
    obtain ⟨d, ds, digits, digit⟩ := toDigits_cons n
    exact ⟨d, ds, by rw [text_of_natural, digits], .inr digit⟩
  | negSucc n => exact ⟨'-', _, text_of_negative n, .inl rfl⟩

theorem chars_start {levels : Nat} {v : JsonValue} (exact : Exact levels v) (depth : Nat) :
    ∃ c cs, chars depth v = c :: cs ∧ isBlank c = false ∧ c ≠ ']' := by
  cases exact with
  | null => exact ⟨'n', _, rfl, by decide, by decide⟩
  | boolean _ b => cases b with
    | false => exact ⟨'f', _, rfl, by decide, by decide⟩
    | true => exact ⟨'t', _, rfl, by decide, by decide⟩
  | @integer _ i low high =>
    obtain ⟨c, cs, text, start⟩ := integer_starts i
    obtain ⟨solid, -, notClose, -⟩ := number_start start
    exact ⟨c, cs, text, solid, notClose⟩
  | string s => exact ⟨'\x22', _, rfl, by decide, by decide⟩
  | @array _ vs all => cases vs with
    | nil => exact ⟨'[', _, rfl, by decide, by decide⟩
    | cons v vs => exact ⟨'[', _, rfl, by decide, by decide⟩
  | @object _ es all => cases es with
    | nil => exact ⟨'\x7b', _, rfl, by decide, by decide⟩
    | cons e es => exact ⟨'\x7b', _, rfl, by decide, by decide⟩

theorem entry_of_written {one : JsonReader JsonValue} (blind : PassesBlanks one) {depth : Nat}
    {e : String × JsonValue} (read : Reads one (chars depth e.2) e.2) :
    Reads (entry one) (entryText depth e) e := by
  intro rest closes
  have shape : entryText depth e ++ rest = '\x22' :: (e.1.toList.flatMap stringChar ++
      '\x22' :: (':' :: ' ' :: (chars depth e.2 ++ rest))) := by
    simp [entryText, stringChars]
  have behind : one (' ' :: (chars depth e.2 ++ rest)) = some (e.2, rest) := by
    calc
      one (' ' :: (chars depth e.2 ++ rest)) = one (skip (chars depth e.2 ++ rest)) := (blind _).symm
      _ = some (e.2, rest) := by rw [blind, read rest closes]
  rw [shape, entry, skip_of_solid rfl]
  simp [string_of_written, skip_of_solid (show isBlank ':' = false from rfl), behind]

theorem string_value_of_written (levels depth : Nat) (s : String) :
    Reads (value levels) (chars depth (.string s)) (.string s) := by
  intro rest _
  have shape : chars depth (.string s) ++ rest =
      '\x22' :: (s.toList.flatMap stringChar ++ '\x22' :: rest) := by
    simp [chars, stringChars]
  rw [shape, value, skip_of_solid rfl]
  simp [scalar, string_of_written]

theorem integer_value_of_written (levels depth : Nat) {i : Int} (low : -2 ^ 63 ≤ i)
    (high : i < 2 ^ 64) : Reads (value levels) (chars depth (.integer i)) (.integer i) := by
  intro rest closes
  obtain ⟨c, cs, text, start⟩ := integer_starts i
  have read := number_of_written i low high closes
  rw [text] at read
  rw [chars, text]
  exact (value_of_number start levels (cs ++ rest)).trans read

theorem array_of_written {levels depth : Nat} {vs : List JsonValue} (all : ∀ v ∈ vs, Exact levels v)
    (read : ∀ v ∈ vs, Reads (value levels) (chars (depth + 1) v) v) :
    Reads (value (levels + 1)) (chars depth (.array vs)) (.array vs) := by
  intro rest _
  cases vs with
  | nil => rfl
  | cons v vs =>
    have shape : chars depth (.array (v :: vs)) ++ rest = '[' :: (newline (depth + 1) ++
        (chars (depth + 1) v ++ (later (chars (depth + 1)) (depth + 1) vs ++
          (newline depth ++ ']' :: rest)))) := by
      simp [chars, elementChars_eq]
    have starts := chars_start (all v List.mem_cons_self) (depth + 1)
    have members := bracketed_of_written (passesBlanks_value levels) (by decide : isBlank ']' = false)
      (by decide) (depth + 1) depth v vs starts read rest
    rw [shape, value, skip_of_solid rfl]
    simp [members]

theorem object_of_written {levels depth : Nat} {es : List (String × JsonValue)}
    (read : ∀ e ∈ es, Reads (value levels) (chars (depth + 1) e.2) e.2) :
    Reads (value (levels + 1)) (chars depth (.object es)) (.object es) := by
  intro rest _
  cases es with
  | nil => rfl
  | cons e es =>
    have shape : chars depth (.object (e :: es)) ++ rest = '\x7b' :: (newline (depth + 1) ++
        (entryText (depth + 1) e ++ (later (entryText (depth + 1)) (depth + 1) es ++
          (newline depth ++ '\x7d' :: rest)))) := by
      simp [chars, entryChars_eq, entryText]
    have entries (d : String × JsonValue) (hd : d ∈ e :: es) :
        Reads (entry (value levels)) (entryText (depth + 1) d) d :=
      entry_of_written (passesBlanks_value levels) (read d hd)
    have members := bracketed_of_written (passesBlanks_entry (value levels))
      (by decide : isBlank '\x7d' = false) (by decide) (depth + 1) depth e es
      ⟨'\x22', _, rfl, by decide, by decide⟩ entries rest
    rw [shape, value, skip_of_solid rfl]
    simp [members]

theorem value_of_written {levels : Nat} {v : JsonValue} (exact : Exact levels v) (depth : Nat) :
    Reads (value levels) (chars depth v) v := by
  -- One level is taken for an array or object, and the rest is left to each member.
  induction exact generalizing depth with
  | null =>
    intro rest _
    rw [value]
    rfl
  | boolean levels b =>
    intro rest _
    rw [value]
    cases b <;> rfl
  | integer levels low high => exact integer_value_of_written levels depth low high
  | string levels s => exact string_value_of_written levels depth s
  | array all ih => exact array_of_written all fun v hv => ih v hv (depth + 1)
  | object all ih => exact object_of_written fun e he => ih e he (depth + 1)

end JsonReader

/-- The text of a value, with or without a line break behind it, is read back as the value. -/
theorem JsonValue.ofText_text {v : JsonValue} (exact : JsonReader.Exact JsonReader.maxLevels v) :
    ofText v.text = some v ∧ ofText (v.text ++ "\n") = some v := by
  have read (rest : List Char) (closes : JsonReader.Closes rest) (blank : JsonReader.skip rest = []) :
      ofText (String.ofList (chars 0 v ++ rest)) = some v := by
    have whole := JsonReader.value_of_written exact 0 rest closes
    rw [ofText, String.toList_ofList, whole]
    simp only [Option.bind_eq_bind, Option.bind_some, blank, if_true]
  constructor
  · have alone := read [] JsonReader.closes_nil rfl
    rwa [List.append_nil] at alone
  · have ended := read ['\n'] (JsonReader.closes_newline 0 []) rfl
    rwa [String.ofList_append] at ended

end SwitchLint
