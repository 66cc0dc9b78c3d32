import SwitchLint.Proofs.Quoting
import SwitchLint.Syntax.Chain

/-!
Where line feeds stand. Of the lexemes of a source only strings and runes can hold one, so the canonical
text of an expression is one line unless a string or a rune in it goes over a line break.
-/

namespace SwitchLint

namespace Text.Pattern

/-! ### Patterns that pass over a character -/

/-- No test of the pattern accepts the character. -/
def avoids (c : Char) : Pattern → Bool
  | never => true
  | empty => true
  | one p => !p c
  | seq a b => a.avoids c && b.avoids c
  | alt a b => a.avoids c && b.avoids c
  | star a => a.avoids c

variable {c : Char} {r : Pattern}

theorem step_of_avoids (avoids : r.avoids c = true) : r.step c = never := by
  induction r with
  | never => rfl
  | empty => rfl
  | one p =>
    have other : p c = false := by simpa [Pattern.avoids] using avoids
    simp [step, other]
  | seq a b iha ihb =>
    obtain ⟨ha, hb⟩ := Bool.and_eq_true_iff.mp avoids
    simp only [step, iha ha, ihb hb, andThen, orElse, ite_self]
  | alt a b iha ihb =>
    obtain ⟨ha, hb⟩ := Bool.and_eq_true_iff.mp avoids
    simp only [step, iha ha, ihb hb, orElse]
  | star a iha => simp only [step, iha avoids, andThen]

theorem avoids_andThen {a b : Pattern} (first : a.avoids c = true) (second : b.avoids c = true) :
    (a.andThen b).avoids c = true := by
  unfold andThen
  split
  · rfl
  · exact second
  · exact Bool.and_eq_true_iff.mpr ⟨first, second⟩

theorem avoids_orElse {a b : Pattern} (first : a.avoids c = true) (second : b.avoids c = true) :
    (a.orElse b).avoids c = true := by
  unfold orElse
  split
  · exact second
  · exact first
  · exact Bool.and_eq_true_iff.mpr ⟨first, second⟩

theorem avoids_step (d : Char) (avoids : r.avoids c = true) : (r.step d).avoids c = true := by
  induction r with
  | never => rfl
  | empty => rfl
  | one p =>
    rw [step]
    split <;> rfl
  | seq a b iha ihb =>
    obtain ⟨ha, hb⟩ := Bool.and_eq_true_iff.mp avoids
    rw [step]
    split
    · exact avoids_orElse (avoids_andThen (iha ha) hb) (ihb hb)
    · exact avoids_andThen (iha ha) hb
  | alt a b iha ihb =>
    obtain ⟨ha, hb⟩ := Bool.and_eq_true_iff.mp avoids
    exact avoids_orElse (iha ha) (ihb hb)
  | star a iha => exact avoids_andThen (iha avoids) avoids

theorem not_mem_of_longestFrom {taken n : Nat} {best : Option Nat} {cs : List Char}
    (avoids : r.avoids c = true) (found : r.longestFrom taken best cs = some n) :
    best = some n ∨ c ∉ cs.take (n - taken) := by
  induction cs generalizing r taken best with
  | nil => exact .inr (by simp)
  | cons d cs ih =>
    have here {best' : Option Nat} (same : best' = if r.nullable then some taken else best)
        (found : best' = some n) : best = some n ∨ c ∉ (d :: cs).take (n - taken) := by
      rw [same] at found
      split at found
      · obtain rfl := Option.some.inj found
        exact .inr (by simp)
      · exact .inl found
    unfold longestFrom at found
    dsimp only at found
    split at found
    · exact here rfl found
    · rename_i alive
      rcases ih (avoids_step d avoids) found with stop | later
      · exact here rfl stop
      · -- The pattern goes on, so this is not the character that it avoids.
        have other : c ≠ d := by
          rintro rfl
          exact alive (by rw [step_of_avoids avoids]; rfl)
        refine .inr ?_
        cases more : n - taken with
        | zero => simp
        | succ k =>
          have rest : n - (taken + 1) = k := by omega
          rw [rest] at later
          rw [List.take_succ_cons]
          simp [other, later]

theorem not_mem_of_longest {n : Nat} {cs : List Char} (avoids : r.avoids c = true)
    (found : r.longest cs = some n) : c ∉ cs.take n :=
  (not_mem_of_longestFrom avoids found).resolve_left (by simp)

end Text.Pattern

namespace Go

/-! ### Lexemes without line feeds -/

/-- Can no lexeme that looks like this hold a line feed? -/
def Lexeme.Shape.isFlat : Lexeme.Shape → Bool
  | word => true
  | int => true
  | float => true
  | imaginary => true
  | mark => true
  | nul => true
  | _ => false

namespace Lexeme

open Text

/-- A line feed stands in it only if it looks as if it could hold one. -/
def Flat (l : Lexeme) : Prop := l.shape.isFlat = true → '\n' ∉ l.text.toList

theorem measure_flat {cs : List Char} (flat : (measure cs).1.isFlat = true) :
    '\n' ∉ cs.take (measure cs).2 := by
  have numbers : ∀ c ∈ [(Shape.int, intPattern), (.float, floatPattern), (.imaginary, imaginaryPattern)],
      c.2.avoids '\n' = true := by decide
  have symbols : ∀ m ∈ marks, '\n' ∉ m.toList := by decide
  have finds := finds_measure cs
  generalize measure cs = found at *
  cases finds with
  | nul => simp
  | @word c cs start =>
    have whole : (c :: cs).take (1 + (cs.takeWhile isIdentifierPart).length) =
        c :: cs.takeWhile isIdentifierPart := by
      rw [Nat.add_comm, List.take_succ_cons]
      exact congrArg (c :: ·) (List.prefix_iff_eq_take.mp (List.takeWhile_prefix _)).symm
    rw [whole]
    intro feed
    rcases List.mem_cons.mp feed with rfl | feed
    · cases start
    · have part := List.mem_takeWhile_imp feed
      cases part
  | number member longest => exact Pattern.not_mem_of_longest (numbers _ member) longest
  | mark found =>
    obtain ⟨m, member, text⟩ := mark_eq_some found
    rw [text]
    exact symbols m member
  | _ => cases flat

theorem scan_flat (source : String) : ∀ l ∈ scan source, l.Flat := by
  intro l hl
  obtain ⟨rest, -, -, shape, text⟩ := (scan_spec source).1 l hl
  rw [Flat, shape, text]
  exact measure_flat

theorem Flat.cut {l : Lexeme} (flat : l.Flat) (n : Nat) : (l.cut n).1.Flat ∧ (l.cut n).2.Flat := by
  constructor
  · intro same feed
    exact flat same (List.mem_of_mem_take (by simpa [Lexeme.cut] using feed))
  · intro same feed
    exact flat same (List.mem_of_mem_drop (by simpa [Lexeme.cut] using feed))

end Lexeme

/-! ### Leaves without line feeds -/

/-- Does the leaf stand between quotes? -/
def Leaf.isQuoted : Leaf → Bool
  | runeLiteral => true
  | interpretedStringLiteral => true
  | rawStringLiteral => true
  | _ => false

theorem Leaf.flat_of_fits {as : Leaf} {shape : Lexeme.Shape} (fits : as.fits shape = true)
    (solid : as ≠ .lineBreak) (bare : as.isQuoted = false) : shape.isFlat = true := by
  cases as
  case lineBreak => exact absurd rfl solid
  case runeLiteral => cases bare
  case interpretedStringLiteral => cases bare
  case rawStringLiteral => cases bare
  all_goals cases shape <;> first | rfl | cases fits

namespace Tree

/-- Of the leaves of the tree only those between quotes hold line feeds. -/
def Flat (t : Tree) : Prop :=
  ∀ l ∈ t.leaves, l.1 ≠ .lineBreak → l.1.isQuoted = false → '\n' ∉ l.2.text.toList

theorem Flat.mono {t s : Tree} (flat : t.Flat) (sub : s.leaves.Sublist t.leaves) : s.Flat :=
  fun l hl => flat l (sub.subset hl)

theorem flat_of_admitted {t : Tree} (admitted : t.Admitted) (lexemes : ∀ l ∈ t.leaves, l.2.Flat) :
    ∀ c ∈ t.children, c.2.Flat := by
  induction t using node_induction with
  | leaf as l => simp [children]
  | node kind children ih =>
    obtain ⟨admits, all⟩ := admitted.of_node
    intro c hc
    have inside : ∀ l ∈ c.2.leaves, l.2.Flat := fun l hl => lexemes l ((leaves_of_child hc).subset hl)
    obtain ⟨f, t⟩ := c
    cases t with
    | leaf as l =>
      have fits := children_of_admits admits _ hc
      simp only [Kind.admitsChild, Bool.and_eq_true] at fits
      intro m hm solid bare
      obtain rfl := List.mem_singleton.mp hm
      exact inside _ hm (Leaf.flat_of_fits fits.1.1 solid bare)
    | node kind' inner =>
      intro l hl
      rw [leaves, childLeaves_eq] at hl
      obtain ⟨c', hc', hl⟩ := List.mem_flatMap.mp hl
      exact ih _ hc (all _ hc) inside c' hc' l hl

end Tree

theorem parseTree_flat {source : String} {t : Tree} (read : parseTree source = .ok t) :
    ∀ c ∈ t.children, c.2.Flat := by
  obtain ⟨steps, built⟩ := parseTree_eq_ok read
  refine Tree.flat_of_admitted (Tree.ofSteps_admitted built) ?_
  exact Tree.ofSteps_holds (fun n _ _ flat => flat.cut n) (fun _ flat => flat)
    (Lexeme.scan_flat source) built

end Go

/-! ### Expressions -/

namespace Expr

/-- The kinds of tokens that stand between quotes. -/
def quotedKinds : List String := ["interpreted_string_literal", "raw_string_literal", "rune_literal"]

mutual

/-- The strings and runes in an expression, as they are written. -/
def quoted : Expr → List String
  | ident _ _ => []
  | selector base field _ => base.quoted ++ field.quoted
  | token kind text _ => if kind ∈ quotedKinds then [text] else []
  | node _ children _ => quotedOfAll children

/-- `quoted` of all expressions of the list. -/
def quotedOfAll : List Expr → List String
  | [] => []
  | e :: es => e.quoted ++ quotedOfAll es

end

/-- No string and no rune in the expression goes over a line break. -/
def Unbroken (e : Expr) : Prop := ∀ text ∈ e.quoted, '\n' ∉ text.toList

instance (e : Expr) : Decidable e.Unbroken := inferInstanceAs (Decidable (∀ text ∈ e.quoted, _))

/-- Names have no line feeds, and of tokens only those between quotes have any. -/
inductive Plain : Expr → Prop
  | ident {name span} : '\n' ∉ name.toList → Plain (.ident name span)
  | token {kind text span} : (kind ∉ quotedKinds → '\n' ∉ text.toList) → Plain (.token kind text span)
  | selector {base field span} : Plain base → Plain field → Plain (.selector base field span)
  | node {kind children span} : (∀ e ∈ children, Plain e) → Plain (.node kind children span)

theorem plain_chain {e : Expr} (plain : e.Plain) : ∀ s ∈ e.chain, s.Plain := by
  induction plain with
  | ident unbroken => simpa [chain] using Plain.ident unbroken
  | token bare => simpa [chain] using Plain.token bare
  | selector _ field base _ => exact List.forall_mem_append.mpr ⟨base, by simpa using field⟩
  | node all _ => simpa [chain] using Plain.node all

theorem charsOfAll_eq (es : List Expr) : charsOfAll es = es.map chars := by
  induction es with
  | nil => rfl
  | cons e es ih => rw [charsOfAll, List.map_cons, ih]

theorem quotedOfAll_eq (es : List Expr) : quotedOfAll es = es.flatMap quoted := by
  induction es with
  | nil => rfl
  | cons e es ih => rw [quotedOfAll, List.flatMap_cons, ih]

theorem mem_joinParts {c : Char} (other : c ≠ ' ') (kind : String) (parts : List (List Char)) :
    c ∈ joinParts kind parts ↔ ∃ p ∈ parts, c ∈ p := by
  induction parts with
  | nil => simp [joinParts]
  | cons p parts ih =>
    cases parts with
    | nil => simp [joinParts]
    | cons q parts =>
      rw [joinParts]
      split <;> simp [ih, other]

/-- Putting parts together adds nothing but spaces. -/
theorem mem_assemble {c : Char} (other : c ≠ ' ') (kind : String) (parts : List (List Char)) :
    c ∈ assemble kind parts ↔ ∃ p ∈ parts, c ∈ p := by
  unfold assemble
  split
  · simp [other]
  · exact mem_joinParts other kind _

/-- The canonical text of a plain expression has a line feed exactly if a string or a rune in it does. -/
theorem feed_in_chars_iff {e : Expr} (plain : e.Plain) :
    '\n' ∈ e.chars ↔ ∃ text ∈ e.quoted, '\n' ∈ text.toList := by
  induction plain with
  | ident unbroken => simpa [chars, quoted] using unbroken
  | @token kind text _ bare =>
    by_cases between : kind ∈ quotedKinds
    · simp [chars, quoted, between]
    · simpa [chars, quoted, between] using bare between
  | selector _ _ base field =>
    simp [chars, quoted, base, field, or_and_right, exists_or]
  | @node kind children _ _ ih =>
    have parts : (∃ e ∈ children, '\n' ∈ e.chars) ↔
        ∃ e ∈ children, ∃ text ∈ e.quoted, '\n' ∈ text.toList :=
      exists_congr fun e => and_congr_right fun he => ih e he
    rw [chars, mem_assemble (by decide), charsOfAll_eq, quoted, quotedOfAll_eq]
    simp only [List.mem_map, exists_exists_and_eq_and, parts, List.mem_flatMap]
    constructor
    · rintro ⟨e, he, text, inside, feed⟩
      exact ⟨text, ⟨e, he, inside⟩, feed⟩
    · rintro ⟨text, ⟨e, he, inside⟩, feed⟩
      exact ⟨e, he, text, inside, feed⟩

end Expr

namespace Go.Tree

theorem mem_partsOf {children : List (Option Field × Tree)} {e : Expr} (member : e ∈ partsOf children) :
    ∃ c ∈ children, (∀ l, c.2 ≠ leaf .lineBreak l) ∧ e = c.2.toExpr := by
  induction children with
  | nil => cases member
  | cons c children ih =>
    rw [partsOf.eq_def] at member
    split at member
    · contradiction
    · rename_i same
      cases same
      obtain ⟨c', hc', found⟩ := ih member
      exact ⟨c', List.mem_cons_of_mem _ hc', found⟩
    · rename_i t _ solid same
      cases same
      rcases List.mem_cons.mp member with rfl | later
      · exact ⟨_, List.mem_cons_self, solid, rfl⟩
      · obtain ⟨c', hc', found⟩ := ih later
        exact ⟨c', List.mem_cons_of_mem _ hc', found⟩

theorem toExpr_plain {t : Tree} (flat : t.Flat) (solid : ∀ l, t ≠ leaf .lineBreak l) :
    t.toExpr.Plain := by
  induction t using node_induction with
  | leaf as l =>
    have solid : as ≠ .lineBreak := fun same => solid l (by rw [same])
    have bare : as.isQuoted = false → '\n' ∉ l.text.toList := flat (as, l) List.mem_cons_self solid
    cases as
    case lineBreak => exact absurd rfl solid
    case identifier => exact .ident (bare rfl)
    case fieldIdentifier => exact .ident (bare rfl)
    case packageIdentifier => exact .ident (bare rfl)
    case typeIdentifier => exact .ident (bare rfl)
    case runeLiteral => exact .token fun other => absurd (by simp [Leaf.name, Expr.quotedKinds]) other
    case interpretedStringLiteral => exact .token fun other => absurd (by simp [Leaf.name, Expr.quotedKinds]) other
    case rawStringLiteral => exact .token fun other => absurd (by simp [Leaf.name, Expr.quotedKinds]) other
    all_goals exact .token fun _ => bare rfl
  | node kind children ih =>
    have plain : ∀ e ∈ partsOf children, e.Plain := by
      intro e he
      obtain ⟨c, hc, solid, rfl⟩ := mem_partsOf he
      exact ih c hc (flat.mono (leaves_of_child hc)) solid
    rcases toExpr_node kind children with ⟨base, middle, field, parts, read⟩ | read
    · rw [parts] at plain
      rw [read]
      exact .selector (plain base (by simp)) (plain field (by simp))
    · rw [read]
      exact .node plain

end Go.Tree

end SwitchLint
