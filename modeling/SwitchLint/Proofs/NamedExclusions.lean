import Mathlib.Data.List.Infix
import SwitchLint.Analysis.Analyzer
import SwitchLint.Proofs.Paths

/-!
What patterns leave out that name one component, with any directories before it or behind it. As patterns
they match paths with a component of that name. But a path is also left out if their text without `**`
occurs in it, and that text need not begin and end where a component does.
-/

namespace SwitchLint

open Text

/-! ### Names in the text of a path -/

namespace Path

/-- A text without slashes stands inside one of the pieces, and what is left of the piece goes on to the
slashes around it. -/
theorem piece_of_text {ps : List (List Char)} {text : List Char} (filled : text ≠ [])
    (slash : '/' ∉ text) {x y : List Char} (whole : slashed ps = x ++ (text ++ y)) :
    ∃ before left right after, ps = before ++ (left ++ (text ++ right)) :: after ∧
      x = slashed before ++ '/' :: left ∧ y = right ++ slashed after := by
  induction ps generalizing x with
  | nil =>
    have none := List.append_eq_nil_iff.mp (List.append_eq_nil_iff.mp whole.symm).2
    exact absurd none.1 filled
  | cons p ps ih =>
    obtain ⟨c, text', rfl⟩ := List.exists_cons_of_ne_nil filled
    rw [slashed_cons] at whole
    cases x with
    | nil => exact absurd (List.cons.inj whole).1 (List.ne_of_not_mem_cons slash)
    | cons d x =>
      obtain ⟨rfl, inner⟩ := List.cons.inj whole
      rcases List.append_eq_append_iff.mp inner with ⟨gap, rfl, later⟩ | ⟨gap, rfl, here⟩
      · obtain ⟨before, left, right, after, rfl, rfl, rfl⟩ := ih later
        exact ⟨p :: before, left, right, after, rfl, by simp [slashed_cons], rfl⟩
      · rcases List.append_eq_append_iff.mp here with ⟨more, rfl, behind⟩ | ⟨more, same, behind⟩
        · exact ⟨[], x, more, ps, rfl, rfl, behind⟩
        · -- What goes over the end of the piece would begin with a slash.
          cases more with
          | nil =>
            rw [List.append_nil] at same
            exact ⟨[], x, [], ps, by simp [same], rfl, by simpa using behind.symm⟩
          | cons e more =>
            cases ps with
            | nil => cases behind
            | cons q ps =>
              obtain ⟨rfl, -⟩ := List.cons.inj behind
              exact absurd (by simp [same]) slash

/-- A text without slashes that stands below a root stands in one component. -/
theorem text_below_iff {place : List String} {text : List Char} (filled : text ≠ [])
    (slash : '/' ∉ text) (x y : List Char) :
    '/' :: join (place.map String.toList) = x ++ (text ++ y) ↔
      ∃ before component after left right, place = before ++ component :: after ∧
        component.toList = left ++ (text ++ right) ∧
        x = slashed (before.map String.toList) ++ '/' :: left ∧
        y = right ++ slashed (after.map String.toList) := by
  by_cases none : place = []
  · subst none
    constructor
    · intro whole
      rcases List.cons_eq_append_iff.mp whole with ⟨-, here⟩ | ⟨x', -, none⟩
      · obtain ⟨c, text', rfl⟩ := List.exists_cons_of_ne_nil filled
        exact absurd (List.cons.inj here).1.symm (List.ne_of_not_mem_cons slash)
      · exact absurd (List.append_eq_nil_iff.mp (List.append_eq_nil_iff.mp none.symm).2).1 filled
    · rintro ⟨before, component, after, left, right, none, -⟩
      simp at none
  · rw [slash_join (by simpa using none)]
    constructor
    · intro whole
      obtain ⟨before, left, right, after, there, rfl, rfl⟩ := piece_of_text filled slash whole
      obtain ⟨before', others, rfl, rfl, rest⟩ := List.map_eq_append_iff.mp there
      obtain ⟨component, after', rfl, same, rfl⟩ := List.map_eq_cons_iff.mp rest
      exact ⟨before', component, after', left, right, rfl, same, rfl, rfl⟩
    · rintro ⟨before, component, after, left, right, rfl, same, rfl, rfl⟩
      simp [slashed_append, slashed_cons, same]

theorem ends_in_slash_iff {s left : List Char} (slash : '/' ∉ left) (x : List Char) :
    x ++ ['/'] = s ++ '/' :: left ↔ left = [] ∧ x = s := by
  constructor
  · intro whole
    rcases List.eq_nil_or_concat left with rfl | ⟨init, c, rfl⟩
    · exact ⟨rfl, List.append_cancel_right whole⟩
    · rw [List.concat_eq_append, ← List.cons_append, ← List.append_assoc] at whole
      obtain rfl := List.singleton_inj.mp (List.append_inj' whole rfl).2
      exact absurd (by simp) slash
  · rintro ⟨rfl, rfl⟩
    rfl

theorem begins_with_slash_iff {right : List Char} (slash : '/' ∉ right) (ps : List (List Char)) :
    (∃ y, '/' :: y = right ++ slashed ps) ↔ right = [] ∧ ps ≠ [] := by
  constructor
  · rintro ⟨y, whole⟩
    cases right with
    | nil => exact ⟨rfl, by rintro rfl; cases whole⟩
    | cons c right => exact absurd (List.cons.inj whole).1 (List.ne_of_not_mem_cons slash)
  · rintro ⟨rfl, filled⟩
    obtain ⟨q, qs, rfl⟩ := List.exists_cons_of_ne_nil filled
    exact ⟨_, rfl⟩

end Path

/-! ### Patterns of one name -/

/-- A name that says nothing but itself in a pattern. -/
structure IsLiteral (name : String) : Prop where
  nonempty : name ≠ ""
  plain : ∀ c ∈ ['/', '*', '?', '[', ']'], c ∉ name.toList

theorem isLiteral_iff (name : String) : IsLiteral name ↔
    name ≠ "" ∧ (['/', '*', '?', '[', ']'].all fun c => !name.toList.contains c) = true := by
  rw [List.all_eq_true]
  simp only [Bool.not_eq_true', List.contains_eq_mem, decide_eq_false_iff_not]
  exact ⟨fun ⟨nonempty, plain⟩ => ⟨nonempty, plain⟩, fun ⟨nonempty, plain⟩ => ⟨nonempty, plain⟩⟩

instance (name : String) : Decidable (IsLiteral name) := decidable_of_iff _ (isLiteral_iff name).symm

namespace IsLiteral

variable {name : String} (literal : IsLiteral name)
include literal

theorem chars : name.toList ≠ [] := fun h => literal.nonempty (String.ext h)

theorem slash : '/' ∉ name.toList := literal.plain '/' (by simp)

theorem wild : ∀ c ∈ name.toList, c ∉ ['*', '?', '['] := by
  intro c member special
  exact literal.plain c (by simp only [List.mem_cons] at special ⊢; tauto) member

end IsLiteral

/-- A pattern that names one component. -/
structure NamePattern where
  name : String
  /-- Any directories may stand before it. -/
  above : Bool
  /-- Something must stand behind it, in that directory or further below. -/
  below : Bool

namespace NamePattern

open Glob (Token)

variable (p : NamePattern)

def text : String := (if p.above then "**/" else "") ++ (p.name ++ (if p.below then "/**" else ""))

def tokens : List Token :=
  (if p.above then [Token.directories] else []) ++ (p.name.toList.map Token.char ++
    (if p.below then [Token.char '/', Token.directories] else []))

/-- The component of that name stands where it may. -/
def Matches (place : List String) : Prop :=
  ∃ before after, place = before ++ p.name :: after ∧ (p.above = false → before = []) ∧
    (p.below = true ↔ after ≠ [])

/-- The component holds the name; where directories go before it or follow, it begins or ends with it. -/
def Spells (component : String) : Prop :=
  ∃ left right, component.toList = left ++ (p.name.toList ++ right) ∧
    (p.above = true → left = []) ∧ (p.below = true → right = [])

/-- A component where the name may stand holds the name. -/
def Touches (place : List String) : Prop :=
  ∃ before component after, place = before ++ component :: after ∧ p.Spells component ∧
    (p.below = true → after ≠ [])

end NamePattern

namespace Glob

/-! ### Reading -/

theorem tokenAt_plain (position : Nat) (before : Option Char) {c : Char}
    (plain : c ∉ ['*', '?', '[']) (cs : List Char) :
    tokenAt position before c cs = .ok (.char c, 0) := by
  simp only [List.mem_cons, List.not_mem_nil, or_false, not_or] at plain
  unfold tokenAt
  split <;> simp_all

/-- Characters that say nothing but themselves become tokens one by one. -/
theorem parseFrom_plain {cs : List Char} (plain : ∀ c ∈ cs, c ∉ ['*', '?', '[']) (position : Nat)
    (before : Option Char) (tokens : List Token) (rest : List Char) :
    parseFrom position before 0 tokens (cs ++ rest) =
      parseFrom (position + cs.length) (cs.getLast?.or before) 0
        ((cs.map Token.char).reverse ++ tokens) rest := by
  induction cs generalizing position before tokens with
  | nil => rfl
  | cons c cs ih =>
    obtain ⟨own, others⟩ := List.forall_mem_cons.mp plain
    have last : cs.getLast?.or (some c) = (c :: cs).getLast?.or before := by
      rw [List.getLast?_cons, Option.some_or]
      cases cs.getLast? <;> rfl
    have push : push (.char c) tokens = .char c :: tokens := rfl
    rw [List.cons_append, parseFrom, tokenAt_plain position before own]
    dsimp only
    rw [push, ih others, last]
    simp [Nat.add_assoc, Nat.add_comm 1]

theorem parseFrom_directories (rest : List Char) :
    parseFrom 0 none 0 [] ('*' :: '*' :: '/' :: rest) =
      parseFrom 3 (some '/') 0 [.directories] rest := by
  simp [parseFrom, tokenAt, push]

theorem parseFrom_beneath (position : Nat) (before : Option Char) (tokens : List Token) :
    parseFrom position before 0 tokens ['/', '*', '*'] =
      .ok (tokens.reverse ++ [.char '/', .directories]) := by
  simp [parseFrom, tokenAt, push]

/-- The name, and what follows it, are read in the same way whatever was read before. -/
theorem parseFrom_name {name : String} (literal : IsLiteral name) (below : Bool) (position : Nat)
    (before : Option Char) (tokens : List Token) :
    parseFrom position before 0 tokens (name.toList ++ (if below then ['/', '*', '*'] else [])) =
      .ok (tokens.reverse ++ (name.toList.map Token.char ++
        (if below then [Token.char '/', Token.directories] else []))) := by
  rw [parseFrom_plain literal.wild]
  cases below with
  | false => simp [parseFrom]
  | true => simp [parseFrom_beneath]

theorem parse_text {p : NamePattern} (literal : IsLiteral p.name) : parse p.text = .ok ⟨p.tokens⟩ := by
  have whole : p.text.toList = (if p.above then ['*', '*', '/'] else []) ++
      (p.name.toList ++ (if p.below then ['/', '*', '*'] else [])) := by
    rw [NamePattern.text]
    cases p.above <;> cases p.below <;> simp
  rw [parse, whole, NamePattern.tokens]
  cases p.above with
  | false => simp [parseFrom_name literal, Except.map]
  | true =>
    simp only [if_true, List.cons_append, List.nil_append, parseFrom_directories,
      parseFrom_name literal]
    rfl

/-! ### Matching -/

theorem accepts_chars (cs : List Char) (ts : List Token) (text : List Char) :
    accepts (cs.map Token.char ++ ts) text = true ↔ ∃ rest, text = cs ++ rest ∧ accepts ts rest = true := by
  induction cs generalizing text with
  | nil => simp
  | cons c cs ih =>
    cases text with
    | nil => simp [accepts]
    | cons d text =>
      rw [List.map_cons, List.cons_append, accepts, Token.admits, Bool.and_eq_true, beq_iff_eq, ih]
      · constructor
        · rintro ⟨rfl, rest, rfl, accepted⟩
          exact ⟨rest, rfl, accepted⟩
        · rintro ⟨rest, whole, accepted⟩
          obtain ⟨rfl, rfl⟩ := List.cons.inj whole
          exact ⟨rfl, rest, rfl, accepted⟩
      all_goals simp

theorem mem_afterSlashes (rest text : List Char) :
    rest ∈ afterSlashes text ↔ rest = [] ∨ ∃ lead, text = lead ++ '/' :: rest := by
  induction text with
  | nil => simp [afterSlashes]
  | cons c text ih =>
    by_cases slash : c = '/'
    · rw [afterSlashes, if_pos slash, List.mem_cons, ih]
      constructor
      · rintro (rfl | rfl | ⟨lead, rfl⟩)
        · exact .inr ⟨[], by rw [slash, List.nil_append]⟩
        · exact .inl rfl
        · exact .inr ⟨c :: lead, rfl⟩
      · rintro (rfl | ⟨lead, whole⟩)
        · exact .inr (.inl rfl)
        · rcases List.cons_eq_append_iff.mp whole with ⟨-, here⟩ | ⟨lead, -, rfl⟩
          · exact .inl (List.cons.inj here).2
          · exact .inr (.inr ⟨lead, rfl⟩)
    · rw [afterSlashes, if_neg slash, ih]
      refine or_congr_right ⟨fun ⟨lead, whole⟩ => ⟨c :: lead, by rw [whole]; rfl⟩, ?_⟩
      rintro ⟨lead, whole⟩
      rcases List.cons_eq_append_iff.mp whole with ⟨-, here⟩ | ⟨lead, -, rfl⟩
      · exact absurd (List.cons.inj here).1.symm slash
      · exact ⟨lead, rfl⟩

/-- Directories may fill what ends in a slash, or nothing at the beginning, or everything. -/
theorem accepts_directories (ts : List Token) (text : List Char) :
    accepts (.directories :: ts) text = true ↔ accepts ts [] = true ∨
      ∃ lead rest, '/' :: text = lead ++ '/' :: rest ∧ accepts ts rest = true := by
  rw [accepts, List.any_eq_true]
  constructor
  · rintro ⟨rest, member, accepted⟩
    rcases List.mem_cons.mp member with rfl | member
    · exact .inr ⟨[], rest, rfl, accepted⟩
    · rcases (mem_afterSlashes rest text).mp member with rfl | ⟨lead, rfl⟩
      · exact .inl accepted
      · exact .inr ⟨'/' :: lead, rest, rfl, accepted⟩
  · rintro (accepted | ⟨lead, rest, whole, accepted⟩)
    · exact ⟨[], List.mem_cons_of_mem _ ((mem_afterSlashes [] text).mpr (.inl rfl)), accepted⟩
    · refine ⟨rest, ?_, accepted⟩
      rcases List.cons_eq_append_iff.mp whole with ⟨-, here⟩ | ⟨lead, -, rfl⟩
      · exact List.mem_cons.mpr (.inl (List.cons.inj here).2)
      · exact List.mem_cons_of_mem _ ((mem_afterSlashes rest _).mpr (.inr ⟨lead, rfl⟩))

/-- What a name and what may follow it match. -/
theorem accepts_name (name : List Char) (below : Bool) (text : List Char) :
    accepts (name.map Token.char ++ (if below then [Token.char '/', Token.directories] else [])) text = true ↔
      ∃ behind, text = name ++ behind ∧ (if below then ∃ more, behind = '/' :: more else behind = []) := by
  rw [accepts_chars]
  refine exists_congr fun behind => and_congr_right fun _ => ?_
  cases below with
  | false => simp [accepts]
  | true =>
    have all (more : List Char) : accepts [.directories] more = true :=
      (accepts_directories [] more).mpr (.inl rfl)
    have slash := accepts_chars ['/'] [.directories] behind
    simp only [all, and_true] at slash
    exact slash

theorem accepts_tokens {p : NamePattern} (literal : IsLiteral p.name) (text : List Char) :
    accepts p.tokens text = true ↔ ∃ lead behind, '/' :: text = lead ++ '/' :: (p.name.toList ++ behind) ∧
      (p.above = false → lead = []) ∧ (if p.below then ∃ more, behind = '/' :: more else behind = []) := by
  rw [NamePattern.tokens]
  cases p.above with
  | false =>
    simp only [Bool.false_eq_true, if_false, List.nil_append, accepts_name]
    constructor
    · rintro ⟨behind, rfl, follows⟩
      exact ⟨[], behind, rfl, fun _ => rfl, follows⟩
    · rintro ⟨lead, behind, whole, first, follows⟩
      rw [first trivial] at whole
      exact ⟨behind, (List.cons.inj whole).2, follows⟩
  | true =>
    simp only [if_true, List.singleton_append, accepts_directories, accepts_name]
    constructor
    · rintro (⟨behind, none, -⟩ | ⟨lead, rest, whole, behind, rfl, follows⟩)
      · exact absurd (List.append_eq_nil_iff.mp none.symm).1 literal.chars
      · exact ⟨lead, behind, whole, by simp, follows⟩
    · rintro ⟨lead, behind, whole, -, follows⟩
      exact .inr ⟨lead, _, whole, behind, rfl, follows⟩

end Glob

theorem excluded_one (e : Exclusion) (root path : String) :
    excluded [e] root path = e.excludes root path := by
  rw [excluded, List.any_cons, List.any_nil, Bool.or_false]

theorem Exclusion.occursIn_iff (text path : List Char) :
    occursIn text path = true ↔ withoutDirectories text ≠ [] ∧ withoutDirectories text ≠ ['/'] ∧
      withoutDirectories text <:+: path := by
  simp [occursIn, Text.cut_isSome_iff, and_assoc]

namespace NamePattern

variable {p : NamePattern}

/-! ### What the two mechanisms find below a root -/

theorem slash_free {component name : String} (proper : IsName component) {left right : List Char}
    (spelled : component.toList = left ++ (name.toList ++ right)) : '/' ∉ left ∧ '/' ∉ right := by
  have slash := proper.slash
  rw [spelled, List.mem_append, List.mem_append, not_or, not_or] at slash
  exact ⟨slash.1, slash.2.2⟩

theorem follows_iff {right : List Char} (slash : '/' ∉ right) (after : List String) :
    (if p.below then ∃ more, right ++ Path.slashed (after.map String.toList) = '/' :: more
      else right ++ Path.slashed (after.map String.toList) = []) ↔
      right = [] ∧ (p.below = true ↔ after ≠ []) := by
  cases p.below with
  | false => simp [Path.slashed_eq_nil_iff]
  | true =>
    have found := Path.begins_with_slash_iff slash (after.map String.toList)
    simpa [eq_comm] using found

/-- As a pattern, it matches the paths with a component of that name where it may stand. -/
theorem covers_iff (literal : IsLiteral p.name) (root : String) {place : List String}
    (proper : ∀ name ∈ place, IsName name) :
    Glob.covers ⟨p.tokens⟩ (Path.relativeTo root (place.foldl Path.append root)) = true ↔
      p.Matches place := by
  rw [Path.relativeTo_below root proper, Glob.covers, String.toList_ofList, Glob.accepts_tokens literal,
    Matches]
  constructor
  · rintro ⟨lead, behind, whole, first, follows⟩
    rw [List.append_cons] at whole
    obtain ⟨before, component, after, left, right, rfl, spelled, start, rfl⟩ :=
      (Path.text_below_iff literal.chars literal.slash _ _).mp whole
    obtain ⟨slash, slash'⟩ := slash_free (proper component (by simp)) spelled
    obtain ⟨rfl, rfl⟩ := (Path.ends_in_slash_iff slash lead).mp start
    obtain ⟨rfl, ends⟩ := (follows_iff slash' after).mp follows
    obtain rfl : component = p.name := String.ext (by simpa using spelled)
    refine ⟨before, after, rfl, fun nothing => ?_, ends⟩
    simpa [Path.slashed_eq_nil_iff] using first nothing
  · rintro ⟨before, after, rfl, first, ends⟩
    refine ⟨Path.slashed (before.map String.toList), Path.slashed (after.map String.toList), ?_,
      fun nothing => ?_, (follows_iff (List.not_mem_nil) after).mpr ⟨rfl, ends⟩⟩
    · rw [List.append_cons (Path.slashed _)]
      exact (Path.text_below_iff literal.chars literal.slash _ _).mpr
        ⟨before, p.name, after, [], [], rfl, by simp, rfl, rfl⟩
    · rw [first nothing]
      rfl

theorem leads_iff {left : List Char} (slash : '/' ∉ left) (before : List Char) :
    (∃ s, s ++ (if p.above then ['/'] else []) = before ++ '/' :: left) ↔
      (p.above = true → left = []) := by
  cases p.above with
  | false => simp
  | true => simp [Path.ends_in_slash_iff slash]

theorem trails_iff {right : List Char} (slash : '/' ∉ right) (after : List String) :
    (∃ t, (if p.below then ['/'] else []) ++ t = right ++ Path.slashed (after.map String.toList)) ↔
      (p.below = true → right = [] ∧ after ≠ []) := by
  cases p.below with
  | false => simp
  | true =>
    have found := Path.begins_with_slash_iff slash (after.map String.toList)
    simpa using found

theorem withoutDirectories_plain {cs : List Char} (plain : '*' ∉ cs) (rest : List Char) :
    Exclusion.withoutDirectories (cs ++ rest) = cs ++ Exclusion.withoutDirectories rest := by
  induction cs with
  | nil => rfl
  | cons c cs ih =>
    obtain ⟨other, plain⟩ := List.ne_and_not_mem_of_not_mem_cons plain
    rw [List.cons_append, Exclusion.withoutDirectories, ih plain, List.cons_append]
    rintro _ rfl
    exact absurd rfl other

theorem withoutDirectories_text (literal : IsLiteral p.name) :
    Exclusion.withoutDirectories p.text.toList =
      (if p.above then ['/'] else []) ++ (p.name.toList ++ (if p.below then ['/'] else [])) := by
  have plain := withoutDirectories_plain (literal.plain '*' (by simp))
  have alone := plain []
  rw [List.append_nil] at alone
  rw [text]
  cases p.above <;> cases p.below <;> simp [plain, alone, Exclusion.withoutDirectories]

/-- Its text without `**` is found in the paths with a component that holds the name so. -/
theorem occursIn_iff (literal : IsLiteral p.name) (root : String) {place : List String}
    (proper : ∀ name ∈ place, IsName name) :
    Exclusion.occursIn p.text.toList
      ('/' :: (Path.relativeTo root (place.foldl Path.append root)).toList) = true ↔ p.Touches place := by
  rw [Path.relativeTo_below root proper, String.toList_ofList]
  have part := withoutDirectories_text literal
  have holds : Exclusion.withoutDirectories p.text.toList ≠ [] ∧
      Exclusion.withoutDirectories p.text.toList ≠ ['/'] := by
    obtain ⟨c, cs, first⟩ := List.exists_cons_of_ne_nil literal.chars
    have member : c ∈ Exclusion.withoutDirectories p.text.toList := by simp [part, first]
    refine ⟨List.ne_nil_of_mem member, fun alone => ?_⟩
    rw [alone, List.mem_singleton] at member
    exact literal.slash (by simp [first, member])
  rw [Exclusion.occursIn_iff, and_iff_right holds.1, and_iff_right holds.2, part]
  constructor
  · rintro ⟨s, t, whole⟩
    have inside : '/' :: Path.join (place.map String.toList) =
        (s ++ if p.above then ['/'] else []) ++
          (p.name.toList ++ ((if p.below then ['/'] else []) ++ t)) := by
      rw [← whole]
      simp only [List.append_assoc]
    obtain ⟨before, component, after, left, right, rfl, spelled, start, rest⟩ :=
      (Path.text_below_iff literal.chars literal.slash _ _).mp inside
    obtain ⟨slash, slash'⟩ := slash_free (proper component (by simp)) spelled
    have starts := (leads_iff slash _).mp ⟨s, start⟩
    have ends := (trails_iff slash' after).mp ⟨t, rest⟩
    exact ⟨before, component, after, rfl, ⟨left, right, spelled, starts, fun h => (ends h).1⟩,
      fun h => (ends h).2⟩
  · rintro ⟨before, component, after, rfl, ⟨left, right, spelled, starts, ends⟩, follows⟩
    obtain ⟨slash, slash'⟩ := slash_free (proper component (by simp)) spelled
    obtain ⟨s, start⟩ := (leads_iff slash _).mpr starts
    obtain ⟨t, rest⟩ := (trails_iff slash' after).mpr fun h => ⟨ends h, follows h⟩
    have inside := (Path.text_below_iff literal.chars literal.slash _ _).mpr
      ⟨before, component, after, left, right, rfl, spelled, start, rest⟩
    exact ⟨s, t, by rw [inside]; simp only [List.append_assoc]⟩

/-! ### What is left out -/

theorem not_absolute (literal : IsLiteral p.name) : Path.isAbsolute p.text = false := by
  rw [Bool.eq_false_iff, ne_eq, Path.isAbsolute_iff, text]
  cases p.above with
  | true => simp
  | false =>
    obtain ⟨c, cs, first⟩ := List.exists_cons_of_ne_nil literal.chars
    have other : '/' ≠ c := List.ne_of_not_mem_cons (first ▸ literal.slash)
    simp [first, other.symm]

theorem touches_of_matches {place : List String} (found : p.Matches place) : p.Touches place := by
  obtain ⟨before, after, there, -, ends⟩ := found
  exact ⟨before, p.name, after, there, ⟨[], [], by simp, fun _ => rfl, fun _ => rfl⟩, ends.mp⟩

/-- Whatever the pattern matches is left out, and so are the other paths where its text without `**` is
found. -/
theorem excludes_iff (literal : IsLiteral p.name) (root : String) {place : List String}
    (proper : ∀ name ∈ place, IsName name) :
    Exclusion.excludes ⟨p.text, ⟨p.tokens⟩⟩ root (place.foldl Path.append root) = true ↔
      p.Touches place := by
  rw [Exclusion.excludes, not_absolute literal]
  simp only [Bool.false_eq_true, if_false, Bool.or_eq_true, covers_iff literal root proper,
    occursIn_iff literal root proper]
  exact or_iff_right_of_imp touches_of_matches

theorem parse_text (literal : IsLiteral p.name) :
    Exclusion.parse p.text = .ok ⟨p.text, ⟨p.tokens⟩⟩ := by
  rw [Exclusion.parse, Glob.parse_text literal]
  rfl

/-- With directories before and behind, only the name itself will do. -/
theorem spells_iff_eq (above : p.above = true) (below : p.below = true) (component : String) :
    p.Spells component ↔ component = p.name := by
  constructor
  · rintro ⟨left, right, spelled, starts, ends⟩
    rw [starts above, ends below] at spelled
    exact String.ext (by simpa using spelled)
  · rintro rfl
    exact ⟨[], [], by simp, fun _ => rfl, fun _ => rfl⟩

/-- A pattern of one name leaves out the paths that have a component which holds the name so. Some component
is the name then if directories go before and behind it, or if whatever holds the name so is the name. -/
theorem excluded_iff_touches (p : NamePattern) (literal : IsLiteral p.name) (root : String)
    {place : List String} (proper : ∀ name ∈ place, IsName name) :
    ∃ e, Exclusion.parse p.text = .ok e ∧
      (e.glob.covers (Path.relativeTo root (place.foldl Path.append root)) = true ↔ p.Matches place) ∧
      (excluded [e] root (place.foldl Path.append root) = true ↔ p.Touches place) ∧
      ((p.above = true ∧ p.below = true ∨ ∀ component ∈ place, p.Spells component → component = p.name) →
        excluded [e] root (place.foldl Path.append root) = true → p.name ∈ place) := by
  have out : excluded [⟨p.text, ⟨p.tokens⟩⟩] root (place.foldl Path.append root) = true ↔
      p.Touches place := by
    rw [excluded_one, excludes_iff literal root proper]
  refine ⟨_, parse_text literal, covers_iff literal root proper, out, fun whole found => ?_⟩
  obtain ⟨before, component, after, rfl, spelled, -⟩ := out.mp found
  have there : component ∈ before ++ component :: after := by simp
  have same : component = p.name := by
    rcases whole with ⟨above, below⟩ | whole
    · exact (spells_iff_eq above below component).mp spelled
    · exact whole component there spelled
  exact same ▸ there

/-- Below the directory `codegen`, a file is left out by `gen/**`. -/
theorem excluded_iff_touches_codegen :
    IsLiteral "gen" ∧ (∀ name ∈ ["codegen", "a.go"], IsName name) ∧
      ∃ e, Exclusion.parse "gen/**" = .ok e ∧ excluded [e] "/repo" "/repo/codegen/a.go" = true := by
  have literal : IsLiteral "gen" := by decide
  have proper : ∀ name ∈ ["codegen", "a.go"], IsName name := by
    intro name member
    simp only [List.mem_cons, List.not_mem_nil, or_false] at member
    rcases member with rfl | rfl <;> constructor <;> decide
  obtain ⟨e, read, -, out, -⟩ := excluded_iff_touches ⟨"gen", false, true⟩ literal "/repo" proper
  have text : NamePattern.text ⟨"gen", false, true⟩ = "gen/**" := by decide
  have path : ["codegen", "a.go"].foldl Path.append "/repo" = "/repo/codegen/a.go" := by decide
  have touched : NamePattern.Touches ⟨"gen", false, true⟩ ["codegen", "a.go"] :=
    ⟨[], "codegen", ["a.go"], rfl, ⟨['c', 'o', 'd', 'e'], [], by decide, by decide, fun _ => rfl⟩, by decide⟩
  rw [text] at read
  rw [path] at out
  exact ⟨literal, proper, e, read, out.mpr touched⟩

/-- Neither name is that of the pattern, and the files are left out. -/
theorem excluded_within_component :
    ((Exclusion.parse "gen/**").map fun e =>
      excluded [e] "/repo" (["codegen", "a.go"].foldl Path.append "/repo")) = .ok true ∧
    "gen" ∉ ["codegen", "a.go"] ∧
    ((Exclusion.parse "**/gen").map fun e =>
      excluded [e] "/repo" (["generated.go"].foldl Path.append "/repo")) = .ok true ∧
    "gen" ∉ ["generated.go"] := by
  decide

/-! ### Directories of one name -/

theorem mem_dropLast_iff (name : String) (place : List String) :
    name ∈ place.dropLast ↔ ∃ before after, place = before ++ name :: after ∧ after ≠ [] := by
  constructor
  · intro member
    obtain ⟨before, between, whole⟩ := List.append_of_mem member
    have filled : place ≠ [] := by
      rintro rfl
      cases member
    refine ⟨before, between ++ [place.getLast filled], ?_, by simp⟩
    rw [← List.cons_append, ← List.append_assoc, ← whole, List.dropLast_append_getLast]
  · rintro ⟨before, after, rfl, filled⟩
    rw [List.dropLast_append_of_ne_nil (List.cons_ne_nil name after),
      List.dropLast_cons_of_ne_nil filled]
    simp

theorem matches_iff_dropLast (above : p.above = true) (below : p.below = true) (place : List String) :
    p.Matches place ↔ p.name ∈ place.dropLast := by
  simp [Matches, above, below, mem_dropLast_iff]

theorem touches_iff_dropLast (above : p.above = true) (below : p.below = true) (place : List String) :
    p.Touches place ↔ p.name ∈ place.dropLast := by
  simp only [Touches, spells_iff_eq above below, below, forall_const, mem_dropLast_iff]
  constructor
  · rintro ⟨before, component, after, there, rfl, filled⟩
    exact ⟨before, after, there, filled⟩
  · rintro ⟨before, after, there, filled⟩
    exact ⟨before, p.name, after, there, rfl, filled⟩

end NamePattern

section Directory

variable {name : String} (literal : IsLiteral name) {place : List String}
  (proper : ∀ component ∈ place, IsName component)
include literal proper

theorem excludes_directory_iff (root : String) :
    Exclusion.excludes ⟨NamePattern.text ⟨name, true, true⟩, ⟨NamePattern.tokens ⟨name, true, true⟩⟩⟩ root
      (place.foldl Path.append root) = true ↔ name ∈ place.dropLast := by
  rw [NamePattern.excludes_iff (p := ⟨name, true, true⟩) literal root proper,
    NamePattern.touches_iff_dropLast rfl rfl]

/-- Exactly the files somewhere below a directory of that name are left out. The pattern matches the same
files. -/
theorem excluded_iff_below_directory (root : String) :
    ∃ e, Exclusion.parse ("**/" ++ name ++ "/**") = .ok e ∧
      (e.glob.covers (Path.relativeTo root (place.foldl Path.append root)) = true ↔
        name ∈ place.dropLast) ∧
      (excluded [e] root (place.foldl Path.append root) = true ↔ name ∈ place.dropLast) := by
  have text : NamePattern.text ⟨name, true, true⟩ = "**/" ++ name ++ "/**" := by
    simp [NamePattern.text, String.append_assoc]
  have read := NamePattern.parse_text (p := ⟨name, true, true⟩) literal
  have covers := NamePattern.covers_iff (p := ⟨name, true, true⟩) literal root proper
  rw [NamePattern.matches_iff_dropLast rfl rfl] at covers
  rw [← text]
  refine ⟨_, read, covers, ?_⟩
  rw [excluded_one, excludes_directory_iff literal proper]

end Directory

theorem excluded_iff_below_directory_vendor :
    IsLiteral "vendor" ∧ (∀ component ∈ ["pkg", "vendor", "lib.src"], IsName component) ∧
      ∃ e, Exclusion.parse "**/vendor/**" = .ok e ∧
        excluded [e] "/repo" "/repo/pkg/vendor/lib.src" = true := by
  have literal : IsLiteral "vendor" := by decide
  have proper : ∀ component ∈ ["pkg", "vendor", "lib.src"], IsName component := by
    intro component member
    simp only [List.mem_cons, List.not_mem_nil, or_false] at member
    rcases member with rfl | rfl | rfl <;> constructor <;> decide
  obtain ⟨e, read, -, out⟩ := excluded_iff_below_directory literal proper "/repo"
  have path : ["pkg", "vendor", "lib.src"].foldl Path.append "/repo" = "/repo/pkg/vendor/lib.src" := by
    decide
  rw [path] at out
  exact ⟨literal, proper, e, read, out.mpr (by decide)⟩

/-- The settings that hold by themselves leave out what stands below `vendor` and `testdata`. -/
theorem excluded_by_default_iff (root : String) {place : List String}
    (proper : ∀ component ∈ place, IsName component) :
    ∃ es, Analyzer.parseExclusions Scope.default.exclude = .ok es ∧
      (excluded es root (place.foldl Path.append root) = true ↔
        "vendor" ∈ place.dropLast ∨ "testdata" ∈ place.dropLast) := by
  have vendor : IsLiteral "vendor" := by decide
  have testdata : IsLiteral "testdata" := by decide
  refine ⟨[⟨_, ⟨NamePattern.tokens ⟨"vendor", true, true⟩⟩⟩,
    ⟨_, ⟨NamePattern.tokens ⟨"testdata", true, true⟩⟩⟩], by rfl, ?_⟩
  rw [excluded, List.any_cons, List.any_cons, List.any_nil, Bool.or_false, Bool.or_eq_true]
  exact or_congr (excludes_directory_iff vendor proper root) (excludes_directory_iff testdata proper root)

end SwitchLint
