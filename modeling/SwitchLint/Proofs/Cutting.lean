import Mathlib.Data.List.Infix
import SwitchLint.Text.Lines

/-!
Cutting texts: what is cut off, what is left, and that joining the pieces undoes the cut.
-/

namespace SwitchLint.Text

/-! ### The beginning and the end of a text -/

theorem after_eq_some_iff (start text rest : List Char) :
    after? start text = some rest ↔ text = start ++ rest := by
  induction start generalizing text with
  | nil => simp [after?]
  | cons s start ih =>
    cases text with
    | nil => simp [after?]
    | cons c text =>
      by_cases same : s = c
      · simp [after?, same, ih]
      · simp [after?, same, Ne.symm same]

/-- A character that the beginning lacks makes no difference at the end. -/
theorem after_concat {start : List Char} {c : Char} (absent : c ∉ start) (text : List Char) :
    after? start (text ++ [c]) = (after? start text).map (· ++ [c]) := by
  induction start generalizing text with
  | nil => rfl
  | cons s start ih =>
    obtain ⟨other, absent⟩ := List.ne_and_not_mem_of_not_mem_cons absent
    cases text with
    | nil => simp [after?, Ne.symm other]
    | cons d text =>
      by_cases same : s = d
      · simp [after?, same, ih absent]
      · simp [after?, same]

theorem endsWith_iff (tail text : List Char) : endsWith tail text = true ↔ tail <:+ text := by
  rw [endsWith, Option.isSome_iff_exists]
  simp only [after_eq_some_iff, List.suffix_iff_exists_eq_append]
  constructor
  · rintro ⟨rest, whole⟩
    exact ⟨rest.reverse, by simpa using congrArg List.reverse whole⟩
  · rintro ⟨rest, rfl⟩
    exact ⟨rest.reverse, by simp⟩

/-! ### The first occurrence of a mark -/

/-- An occurrence of a mark that does not begin the text leaves the first character before it. -/
theorem occurs_later {mark text before rest : List Char} {c : Char}
    (absent : after? mark (c :: text) = none) (whole : c :: text = before ++ mark ++ rest) :
    ∃ inner, before = c :: inner ∧ text = inner ++ mark ++ rest := by
  cases before with
  | nil =>
    have found := (after_eq_some_iff mark (c :: text) rest).mpr whole
    rw [absent] at found
    cases found
  | cons d inner =>
    obtain ⟨rfl, tail⟩ := List.cons.inj whole
    exact ⟨inner, rfl, tail⟩

/-- The text is cut at the first occurrence of the mark. -/
theorem cut_eq_some_iff (mark text before rest : List Char) :
    cut? mark text = some (before, rest) ↔ text = before ++ mark ++ rest ∧
      ∀ before' rest', text = before' ++ mark ++ rest' → before.length ≤ before'.length := by
  induction text generalizing before with
  | nil =>
    rw [cut?]
    constructor
    · intro found
      obtain ⟨left, whole, same⟩ := Option.map_eq_some_iff.mp found
      obtain ⟨rfl, rfl⟩ := Prod.mk.inj same
      exact ⟨by simpa using (after_eq_some_iff mark [] left).mp whole, by simp⟩
    · rintro ⟨whole, _⟩
      obtain ⟨rfl, rfl, rfl⟩ : before = [] ∧ mark = [] ∧ rest = [] := by simpa using whole
      rfl
  | cons c text ih =>
    rw [cut?]
    cases here : after? mark (c :: text) with
    | some left =>
      have whole := (after_eq_some_iff mark (c :: text) left).mp here
      simp only [Option.some.injEq, Prod.mk.injEq]
      constructor
      · rintro ⟨rfl, rfl⟩
        exact ⟨whole, by simp⟩
      · rintro ⟨whole', first⟩
        have none : before = [] := List.length_eq_zero_iff.mp (Nat.le_zero.mp (first [] left whole))
        subst none
        exact ⟨rfl, by simpa using whole.symm.trans whole'⟩
    | none =>
      dsimp only
      constructor
      · intro found
        obtain ⟨⟨inner, left⟩, cut, same⟩ := Option.map_eq_some_iff.mp found
        obtain ⟨rfl, rfl⟩ := Prod.mk.inj same
        obtain ⟨whole, first⟩ := (ih inner).mp cut
        refine ⟨by simp [whole], fun before' rest' whole' => ?_⟩
        obtain ⟨inner', rfl, tail⟩ := occurs_later here whole'
        exact Nat.succ_le_succ (first inner' rest' tail)
      · rintro ⟨whole, first⟩
        obtain ⟨inner, rfl, tail⟩ := occurs_later here whole
        have found : cut? mark text = some (inner, rest) := by
          refine (ih inner).mpr ⟨tail, fun before' rest' whole' => ?_⟩
          exact Nat.le_of_succ_le_succ (first (c :: before') rest' (by simp [whole']))
        rw [found]
        rfl

/-- Of a mark that is one character, the first is the one that no other stands before. -/
theorem cut_char_iff (mark : Char) (text before rest : List Char) :
    cut? [mark] text = some (before, rest) ↔ text = before ++ mark :: rest ∧ mark ∉ before := by
  rw [cut_eq_some_iff, List.append_assoc, List.singleton_append]
  refine and_congr_right fun whole => ⟨fun first member => ?_, fun absent before' rest' whole' => ?_⟩
  · obtain ⟨before', inner, rfl⟩ := List.append_of_mem member
    have earlier := first before' (inner ++ mark :: rest) (by simp [whole])
    rw [List.length_append, List.length_cons] at earlier
    omega
  · by_contra earlier
    have inside : before'.length < before.length := Nat.lt_of_not_le earlier
    have there : text[before'.length]? = some mark := by simp [whole']
    rw [whole, List.getElem?_append_left inside] at there
    exact absent (List.mem_of_getElem? there)

/-- A character that the mark lacks makes no difference to where the mark is found. -/
theorem cut_concat {mark : List Char} {c : Char} (absent : c ∉ mark) (text : List Char) :
    cut? mark (text ++ [c]) = (cut? mark text).map fun (before, rest) => (before, rest ++ [c]) := by
  induction text with
  | nil =>
    cases mark with
    | nil => rfl
    | cons m mark =>
      have other : m ≠ c := fun same => absent (same ▸ List.mem_cons_self)
      simp [cut?, after?, other]
  | cons d text ih =>
    have here := after_concat absent (d :: text)
    rw [List.cons_append] at here ⊢
    rw [cut?, here, cut?, ih]
    cases after? mark (d :: text) with
    | none => cases cut? mark text <;> rfl
    | some rest => rfl

theorem cut_isSome_iff (mark text : List Char) : (cut? mark text).isSome = true ↔ mark <:+: text := by
  induction text with
  | nil =>
    rw [cut?, Option.isSome_map, List.infix_nil]
    cases mark <;> simp [after?]
  | cons c text ih =>
    rw [cut?, List.infix_cons_iff]
    cases here : after? mark (c :: text) with
    | some rest =>
      have whole := (after_eq_some_iff mark (c :: text) rest).mp here
      exact ⟨fun _ => .inl ⟨rest, whole.symm⟩, fun _ => rfl⟩
    | none =>
      have later : ¬ mark <+: c :: text := by
        rintro ⟨rest, whole⟩
        rw [(after_eq_some_iff mark (c :: text) rest).mpr whole.symm] at here
        cases here
      simp [ih, later]

/-! ### Pieces between marks -/

theorem split_nonempty (mark : Char) (cs : List Char) : split mark cs ≠ [] := by
  cases cs with
  | nil => simp [split]
  | cons c cs =>
    rw [split]
    split
    · simp
    · split <;> simp

/-- A character that is no mark goes to the first piece. -/
theorem split_cons {mark c : Char} (other : c ≠ mark) (cs : List Char) :
    ∃ piece pieces, split mark cs = piece :: pieces ∧
      split mark (c :: cs) = (c :: piece) :: pieces := by
  cases rest : split mark cs with
  | nil => exact absurd rest (split_nonempty mark cs)
  | cons piece pieces => exact ⟨piece, pieces, rfl, by simp [split, other, rest]⟩

theorem split_append_mark (mark : Char) (xs ys : List Char) :
    split mark (xs ++ mark :: ys) = split mark xs ++ split mark ys := by
  induction xs with
  | nil => simp [split]
  | cons x xs ih =>
    by_cases hit : x = mark
    · simp [split, hit, ih]
    · obtain ⟨piece, pieces, rest, whole⟩ := split_cons hit xs
      obtain ⟨piece', pieces', rest', whole'⟩ := split_cons hit (xs ++ mark :: ys)
      rw [ih, rest, List.cons_append] at rest'
      obtain ⟨rfl, rfl⟩ := List.cons.inj rest'
      rw [List.cons_append, whole, whole', List.cons_append]

theorem split_of_not_mem {mark : Char} {cs : List Char} (absent : mark ∉ cs) :
    split mark cs = [cs] := by
  induction cs with
  | nil => rfl
  | cons c cs ih =>
    obtain ⟨other, absent⟩ := List.ne_and_not_mem_of_not_mem_cons absent
    obtain ⟨piece, pieces, rest, whole⟩ := split_cons (Ne.symm other) cs
    rw [ih absent] at rest
    obtain ⟨rfl, rfl⟩ := List.cons.inj rest
    exact whole

theorem not_mem_of_mem_split {mark : Char} {cs piece : List Char} (member : piece ∈ split mark cs) :
    mark ∉ piece := by
  induction cs generalizing piece with
  | nil =>
    obtain rfl := List.mem_singleton.mp member
    exact List.not_mem_nil
  | cons c cs ih =>
    by_cases hit : c = mark
    · simp only [split, if_pos hit] at member
      rcases List.mem_cons.mp member with rfl | member
      · exact List.not_mem_nil
      · exact ih member
    · obtain ⟨first, others, rest, whole⟩ := split_cons hit cs
      rw [rest] at ih
      rw [whole] at member
      rcases List.mem_cons.mp member with rfl | member
      · exact List.not_mem_cons_of_ne_of_not_mem (Ne.symm hit) (ih List.mem_cons_self)
      · exact ih (List.mem_cons_of_mem first member)

theorem split_intercalate {mark : Char} {pieces : List (List Char)} (some : pieces ≠ [])
    (absent : ∀ piece ∈ pieces, mark ∉ piece) : split mark ([mark].intercalate pieces) = pieces := by
  induction pieces with
  | nil => exact absurd rfl some
  | cons piece pieces ih =>
    have head := absent piece List.mem_cons_self
    cases pieces with
    | nil => simpa using split_of_not_mem head
    | cons next pieces =>
      have tail := ih (List.cons_ne_nil next pieces) fun p hp => absent p (List.mem_cons_of_mem piece hp)
      rw [List.intercalate_cons_cons, List.append_assoc, List.singleton_append, split_append_mark,
        split_of_not_mem head, tail, List.singleton_append]

/-- What holds no mark goes to the first piece. -/
theorem split_append_of_not_mem {mark : Char} {xs : List Char} (absent : mark ∉ xs) (ys : List Char) :
    ∃ piece pieces, split mark ys = piece :: pieces ∧ split mark (xs ++ ys) = (xs ++ piece) :: pieces := by
  induction xs with
  | nil =>
    obtain ⟨piece, pieces, whole⟩ := List.exists_cons_of_ne_nil (split_nonempty mark ys)
    exact ⟨piece, pieces, whole, whole⟩
  | cons x xs ih =>
    obtain ⟨other, absent⟩ := List.ne_and_not_mem_of_not_mem_cons absent
    obtain ⟨piece, pieces, whole, behind⟩ := ih absent
    obtain ⟨piece', pieces', behind', here⟩ := split_cons (Ne.symm other) (xs ++ ys)
    obtain ⟨rfl, rfl⟩ := List.cons.inj (behind.symm.trans behind')
    exact ⟨piece, pieces, whole, here⟩

theorem intercalate_split (mark : Char) (cs : List Char) : [mark].intercalate (split mark cs) = cs := by
  induction cs with
  | nil => rfl
  | cons c cs ih =>
    by_cases hit : c = mark
    · obtain ⟨piece, pieces, whole⟩ := List.exists_cons_of_ne_nil (split_nonempty mark cs)
      rw [split, if_pos hit, whole, List.intercalate_cons_cons, ← whole, ih, hit]
      rfl
    · obtain ⟨piece, pieces, whole, here⟩ := split_cons hit cs
      rw [whole] at ih
      rw [here]
      cases pieces <;> simp_all [List.intercalate]

theorem mem_intercalate {c : Char} {separator : List Char} (absent : c ∉ separator)
    (pieces : List (List Char)) : c ∈ separator.intercalate pieces ↔ ∃ p ∈ pieces, c ∈ p := by
  induction pieces with
  | nil => simp
  | cons p pieces ih =>
    cases pieces with
    | nil => simp
    | cons q pieces => simp [List.intercalate_cons_cons, ih, absent]

end SwitchLint.Text
