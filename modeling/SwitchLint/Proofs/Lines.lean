import Mathlib.Data.List.Infix
import Mathlib.Data.List.TakeWhile
import SwitchLint.Text.Lines

/-!
White space around texts, and the lines of a text, counted by the line feeds before them.
-/

namespace SwitchLint.Text

/-! ### White space -/

theorem trimStart_blanks {blanks : List Char} (blank : ∀ c ∈ blanks, isBlank c = true)
    (text : List Char) : trimStart (blanks ++ text) = trimStart text :=
  List.dropWhile_append_of_pos blank

theorem trimStart_cons {c : Char} (dense : isBlank c = false) (text : List Char) :
    trimStart (c :: text) = c :: text := by
  simp [trimStart, dense]

theorem trimStart_eq (text : List Char) :
    ∃ blanks, text = blanks ++ trimStart text ∧ ∀ c ∈ blanks, isBlank c = true :=
  ⟨text.takeWhile isBlank, List.takeWhile_append_dropWhile.symm, fun _ hc => List.mem_takeWhile_imp hc⟩

theorem trimEnd_blanks (text : List Char) {blanks : List Char}
    (blank : ∀ c ∈ blanks, isBlank c = true) : trimEnd (text ++ blanks) = trimEnd text := by
  have blank' : ∀ c ∈ blanks.reverse, isBlank c = true := fun c hc => blank c (List.mem_reverse.mp hc)
  rw [trimEnd, List.reverse_append, List.dropWhile_append_of_pos blank', trimEnd]

theorem trimEnd_concat (text : List Char) {c : Char} (dense : isBlank c = false) :
    trimEnd (text ++ [c]) = text ++ [c] := by
  simp [trimEnd, dense]

theorem trimEnd_eq (text : List Char) :
    ∃ blanks, text = trimEnd text ++ blanks ∧ ∀ c ∈ blanks, isBlank c = true := by
  refine ⟨(text.reverse.takeWhile isBlank).reverse, ?_, fun c hc => ?_⟩
  · rw [trimEnd, ← List.reverse_append, List.takeWhile_append_dropWhile, List.reverse_reverse]
  · exact List.mem_takeWhile_imp (List.mem_reverse.mp hc)

/-- White space behind a text goes with its end, or is all that is left of it. -/
theorem trimStart_concat (text : List Char) {c : Char} (blank : isBlank c = true) :
    trimStart (text ++ [c]) = trimStart text ++ [c] ∨
      (trimStart (text ++ [c]) = [] ∧ trimStart text = []) := by
  obtain ⟨blanks, whole, all⟩ := trimStart_eq text
  cases left : trimStart text with
  | nil =>
    refine .inr ⟨?_, rfl⟩
    rw [whole, left, List.append_nil, trimStart_blanks all]
    simp [trimStart, blank]
  | cons d ds =>
    refine .inl ?_
    have dense : isBlank d = false := by
      have kept := List.head?_dropWhile_not isBlank text
      unfold trimStart at left
      simpa [left] using kept
    rw [whole, left, List.append_assoc, trimStart_blanks all, List.cons_append, trimStart_cons dense]

theorem trim_concat (text : List Char) {c : Char} (blank : isBlank c = true) :
    trim (text ++ [c]) = trim text := by
  unfold trim
  rcases trimStart_concat text blank with kept | ⟨none, none'⟩
  · rw [kept, trimEnd_blanks _ (by simpa using blank)]
  · rw [none, none']

/-- Trimming the start stops at the first character that is no white space. -/
theorem trimStart_append (xs : List Char) {c : Char} (dense : isBlank c = false) (ys : List Char) :
    trimStart (xs ++ c :: ys) = trimStart xs ++ c :: ys := by
  simp only [trimStart, List.dropWhile_append, List.isEmpty_iff]
  split
  · rename_i none
    rw [none, List.nil_append, List.dropWhile_cons_of_neg (by simp [dense])]
  · rfl

theorem trimEnd_append (xs : List Char) {c : Char} (dense : isBlank c = false) (ys : List Char) :
    trimEnd (xs ++ c :: ys) = xs ++ c :: trimEnd ys := by
  have back := trimStart_append ys.reverse dense xs.reverse
  unfold trimStart at back
  simp [trimEnd, back]

theorem trim_blanks {blanks : List Char} (blank : ∀ c ∈ blanks, isBlank c = true) (text : List Char) :
    trim (blanks ++ text) = trim text := by
  rw [trim, trimStart_blanks blank, trim]

theorem trim_append_blanks (text : List Char) {blanks : List Char}
    (blank : ∀ c ∈ blanks, isBlank c = true) : trim (text ++ blanks) = trim text := by
  induction blanks generalizing text with
  | nil => rw [List.append_nil]
  | cons c blanks ih =>
    obtain ⟨first, others⟩ := List.forall_mem_cons.mp blank
    rw [← List.singleton_append, ← List.append_assoc, ih _ others, trim_concat text first]

/-- A text that neither begins nor ends in white space is kept as it is. -/
theorem trim_of_tight {text : List Char} (start : ∀ c, text.head? = some c → isBlank c = false)
    (stop : ∀ c, text.getLast? = some c → isBlank c = false) : trim text = text := by
  cases text with
  | nil => rfl
  | cons c text =>
    rw [trim, trimStart_cons (start c rfl)]
    obtain ⟨init, d, whole⟩ := List.eq_nil_or_concat (c :: text) |>.resolve_left (List.cons_ne_nil c text)
    rw [whole, List.concat_eq_append] at stop ⊢
    exact trimEnd_concat init (stop d List.getLast?_concat)

theorem trim_eq (text : List Char) : ∃ left right, text = left ++ (trim text ++ right) ∧
    (∀ c ∈ left, isBlank c = true) ∧ ∀ c ∈ right, isBlank c = true := by
  obtain ⟨left, whole, blank⟩ := trimStart_eq text
  obtain ⟨right, whole', blank'⟩ := trimEnd_eq (trimStart text)
  exact ⟨left, right, by rw [trim, ← whole', ← whole], blank, blank'⟩

theorem trim_tight (text : List Char) : (∀ c, (trim text).head? = some c → isBlank c = false) ∧
    ∀ c, (trim text).getLast? = some c → isBlank c = false := by
  have dense {cs : List Char} {c : Char} (first : (cs.dropWhile isBlank).head? = some c) :
      isBlank c = false := by
    have kept := List.head?_dropWhile_not isBlank cs
    rwa [first] at kept
  constructor
  · intro c first
    obtain ⟨blanks, whole, -⟩ := trimEnd_eq (trimStart text)
    have first' : (trimStart text).head? = some c := by
      rw [whole, List.head?_append, ← trim, first, Option.some_or]
    exact dense first'
  · intro c last
    rw [trim, trimEnd, List.getLast?_reverse] at last
    exact dense last

/-! ### Lines -/

/-- A line without the carriage return at its end. -/
def dropReturn (line : List Char) : List Char :=
  if line.getLast? = some '\r' then line.dropLast else line

theorem dropReturn_concat (line : List Char) (c : Char) :
    dropReturn (line ++ [c]) = if c = '\r' then line else line ++ [c] := by
  simp [dropReturn]

theorem dropReturn_eq (line : List Char) :
    dropReturn line = line ∨ line = dropReturn line ++ ['\r'] := by
  rcases List.eq_nil_or_concat line with rfl | ⟨line, c, rfl⟩
  · exact .inl rfl
  · by_cases ends : c = '\r' <;> simp [dropReturn_concat, ends]

theorem dropReturn_append (start : List Char) {c : Char} (other : c ≠ '\r') (line : List Char) :
    dropReturn (start ++ c :: line) = start ++ c :: dropReturn line := by
  rcases List.eq_nil_or_concat line with rfl | ⟨line, d, rfl⟩
  · exact (dropReturn_concat start c).trans (if_neg other)
  · have whole : start ++ c :: (line ++ [d]) = (start ++ c :: line) ++ [d] := by simp
    rw [List.concat_eq_append, whole, dropReturn_concat, dropReturn_concat]
    split <;> simp

theorem lines_cons {c : Char} {text : List Char} (other : c ≠ '\n')
    (inside : c = '\r' → text.head? ≠ some '\n') :
    lines (c :: text) = match lines text with
      | [] => [[c]]
      | l :: ls => (c :: l) :: ls := by
  refine lines.eq_4 c text other ?_
  rintro rest same rfl
  exact inside same rfl

theorem lines_append_break {line : List Char} (unbroken : '\n' ∉ line) (rest : List Char) :
    lines (line ++ '\n' :: rest) = dropReturn line :: lines rest := by
  induction line with
  | nil => simp [lines, dropReturn]
  | cons c line ih =>
    obtain ⟨other, unbroken⟩ := List.ne_and_not_mem_of_not_mem_cons unbroken
    cases line with
    | nil =>
      by_cases hit : c = '\r'
      · simp [hit, lines, dropReturn]
      · rw [List.singleton_append, lines_cons (Ne.symm other) fun same => absurd same hit]
        simp [lines, dropReturn, hit]
    | cons d line =>
      have next : d ≠ '\n' := fun same => unbroken (same ▸ List.mem_cons_self)
      rw [List.cons_append, lines_cons (Ne.symm other) (by simp [next]), ih unbroken]
      simp only [dropReturn, List.getLast?_cons_cons]
      split <;> simp

theorem lines_unbroken {line : List Char} (unbroken : '\n' ∉ line) (nonempty : line ≠ []) :
    lines line = [line] := by
  induction line with
  | nil => exact absurd rfl nonempty
  | cons c line ih =>
    obtain ⟨other, unbroken⟩ := List.ne_and_not_mem_of_not_mem_cons unbroken
    cases line with
    | nil => rw [lines_cons (Ne.symm other) (by simp)]; simp [lines]
    | cons d line =>
      have next : d ≠ '\n' := fun same => unbroken (same ▸ List.mem_cons_self)
      rw [lines_cons (Ne.symm other) (by simp [next]), ih unbroken (List.cons_ne_nil d line)]

/-- The text consists of whole lines. -/
def WholeLines (head : List Char) : Prop := head = [] ∨ head.getLast? = some '\n'

theorem WholeLines.append {xs ys : List Char} (first : WholeLines xs) (second : WholeLines ys) :
    WholeLines (xs ++ ys) := by
  rcases second with rfl | ends
  · rwa [List.append_nil]
  · have some : ys ≠ [] := fun none => by simp [none] at ends
    exact .inr ((List.getLast?_append_of_ne_nil xs some).trans ends)

theorem lines_drop {head : List Char} (whole : WholeLines head) (text : List Char) :
    (lines (head ++ text)).drop (head.count '\n') = lines text := by
  induction length : head.length using Nat.strongRecOn generalizing head with
  | ind n ih =>
    subst length
    rcases whole with rfl | ends
    · simp
    · have member : '\n' ∈ head := List.mem_of_getLast? ends
      obtain ⟨first, others, rfl, unbroken⟩ := List.eq_append_cons_of_mem member
      have whole : WholeLines others := by
        cases others with
        | nil => exact .inl rfl
        | cons c others => exact .inr (by simpa using ends)
      have tail := ih others.length (by simp; omega) whole rfl
      rw [List.append_assoc, List.cons_append, lines_append_break unbroken, List.count_append,
        List.count_cons_self, List.count_eq_zero_of_not_mem unbroken, Nat.zero_add, List.drop_succ_cons,
        tail]

/-- The line behind the whole lines of `head`. -/
theorem line_behind {head line tail : List Char} (whole : WholeLines head) (unbroken : '\n' ∉ line)
    (nonempty : line ≠ []) (ends : tail = [] ∨ tail.head? = some '\n') :
    ∃ shown, (shown = line ∨ shown = dropReturn line) ∧
      (lines (head ++ (line ++ tail)))[head.count '\n']? = some shown := by
  have first : (lines (head ++ (line ++ tail)))[head.count '\n']? = (lines (line ++ tail)).head? := by
    rw [← lines_drop whole (line ++ tail), List.head?_drop]
  rw [first]
  cases tail with
  | nil =>
    rw [List.append_nil, lines_unbroken unbroken nonempty]
    exact ⟨line, .inl rfl, rfl⟩
  | cons c tail =>
    obtain rfl : c = '\n' := by simpa using ends
    rw [lines_append_break unbroken]
    exact ⟨dropReturn line, .inr rfl, rfl⟩

end SwitchLint.Text
