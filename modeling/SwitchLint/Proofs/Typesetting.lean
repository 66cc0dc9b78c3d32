import Mathlib.Data.List.Chain
import SwitchLint.Proofs.Tokens

/-!
Canonical texts as leaves and blanks. Blanks keep words apart, however deep the expressions are nested
in which they meet, so that only signs, numbers and few words can run on into what is printed behind
them.
-/

namespace SwitchLint

namespace Expr

open Go.Lexeme (render render_append)

mutual

/-- The texts of the leaves in order, with the dots of the selectors. -/
def leafTexts : Expr → List String
  | ident name _ => [name]
  | selector base field _ => base.leafTexts ++ "." :: field.leafTexts
  | token _ text _ => [text]
  | node _ children _ => leafTextsOfAll children

/-- `leafTexts` of all expressions of the list. -/
def leafTextsOfAll : List Expr → List String
  | [] => []
  | e :: es => e.leafTexts ++ leafTextsOfAll es

end

/-- Neighbouring parts with the blanks between them. -/
def joinSet (kind : String) : List (List (Option (List Char))) → List (Option (List Char))
  | [] => []
  | [p] => p
  | p :: q :: ps =>
    p ++ (if spaced kind (render p) (render q) then none :: joinSet kind (q :: ps)
      else joinSet kind (q :: ps))

/-- The parts of a composite expression with the blanks between them. -/
def assembleSet (kind : String) (parts : List (List (Option (List Char)))) : List (Option (List Char)) :=
  match kind == "binary_expression", parts with
  | true, [left, operator, right] => left ++ none :: (operator ++ none :: right)
  | _, parts => joinSet kind parts

mutual

/-- The canonical text as leaves and blanks. -/
def typeset : Expr → List (Option (List Char))
  | ident name _ => [some name.toList]
  | selector base field _ => base.typeset ++ some ['.'] :: field.typeset
  | token _ text _ => [some text.toList]
  | node kind children _ => assembleSet kind (typesetOfAll children)

/-- `typeset` of all expressions of the list. -/
def typesetOfAll : List Expr → List (List (Option (List Char)))
  | [] => []
  | e :: es => e.typeset :: typesetOfAll es

end

theorem render_joinSet (kind : String) (parts : List (List (Option (List Char)))) :
    render (joinSet kind parts) = joinParts kind (parts.map render) := by
  induction parts with
  | nil => rfl
  | cons p parts ih =>
    cases parts with
    | nil => rfl
    | cons q parts =>
      rw [joinSet, List.map_cons, List.map_cons, joinParts, render_append, ← List.map_cons, ← ih]
      split <;> rfl

theorem render_assembleSet (kind : String) (parts : List (List (Option (List Char)))) :
    render (assembleSet kind parts) = assemble kind (parts.map render) := by
  unfold assembleSet assemble
  cases kind == "binary_expression" with
  | false => exact render_joinSet kind parts
  | true =>
    rcases parts with _ | ⟨left, _ | ⟨operator, _ | ⟨right, _ | ⟨other, parts⟩⟩⟩⟩
    · rfl
    · rfl
    · exact render_joinSet kind [left, operator]
    · simp [render, render_append]
    · exact render_joinSet kind (left :: operator :: right :: other :: parts)

mutual

theorem render_typeset : ∀ e : Expr, render e.typeset = e.chars
  | ident name _ => by simp [typeset, chars, render]
  | selector base field _ => by
    rw [typeset, chars, render_append, render, render_typeset base, render_typeset field]
    rfl
  | token _ text _ => by simp [typeset, chars, render]
  | node kind children _ => by
    rw [typeset, chars, render_assembleSet, render_typesetOfAll]

theorem render_typesetOfAll : ∀ es : List Expr, (typesetOfAll es).map render = charsOfAll es
  | [] => rfl
  | e :: es => by rw [typesetOfAll, charsOfAll, List.map_cons, render_typeset, render_typesetOfAll]

end

/-! ### Leaves -/

/-- The leaves among leaves and blanks. -/
def leavesOf (ps : List (Option (List Char))) : List (List Char) := ps.filterMap id

theorem leavesOf_append (ps qs : List (Option (List Char))) :
    leavesOf (ps ++ qs) = leavesOf ps ++ leavesOf qs := List.filterMap_append

theorem leavesOf_joinSet (kind : String) (parts : List (List (Option (List Char)))) :
    leavesOf (joinSet kind parts) = parts.flatMap leavesOf := by
  induction parts with
  | nil => rfl
  | cons p parts ih =>
    cases parts with
    | nil => simp [joinSet]
    | cons q parts =>
      rw [joinSet, leavesOf_append, List.flatMap_cons, ← ih]
      split <;> rfl

theorem leavesOf_assembleSet (kind : String) (parts : List (List (Option (List Char)))) :
    leavesOf (assembleSet kind parts) = parts.flatMap leavesOf := by
  unfold assembleSet
  split
  · simp [leavesOf]
  · exact leavesOf_joinSet kind _

theorem leafTextsOfAll_eq (es : List Expr) : leafTextsOfAll es = es.flatMap leafTexts := by
  induction es with
  | nil => rfl
  | cons e es ih => rw [leafTextsOfAll, List.flatMap_cons, ih]

theorem typesetOfAll_eq (es : List Expr) : typesetOfAll es = es.map typeset := by
  induction es with
  | nil => rfl
  | cons e es ih => rw [typesetOfAll, List.map_cons, ih]

mutual

/-- The canonical text is set from the leaves. -/
theorem leavesOf_typeset : ∀ e : Expr, leavesOf e.typeset = e.leafTexts.map String.toList
  | ident name _ => rfl
  | selector base field _ => by
    have dot : leavesOf (some ['.'] :: field.typeset) = ['.'] :: leavesOf field.typeset := rfl
    rw [typeset, leafTexts, leavesOf_append, dot, leavesOf_typeset base, leavesOf_typeset field,
      List.map_append]
    rfl
  | token _ text _ => rfl
  | node kind children _ => by
    rw [typeset, leafTexts, leavesOf_assembleSet, leavesOf_typesetOfAll]

theorem leavesOf_typesetOfAll : ∀ es : List Expr,
    (typesetOfAll es).flatMap leavesOf = (leafTextsOfAll es).map String.toList
  | [] => rfl
  | e :: es => by
    rw [typesetOfAll, leafTextsOfAll, List.flatMap_cons, List.map_append, leavesOf_typeset,
      leavesOf_typesetOfAll]

end

/-! ### Words that meet -/

/-- Two neighbours do not meet in letters, digits or underscores on both sides. -/
def KeptApart : Option (List Char) → Option (List Char) → Prop
  | some left, some right => ¬ (Text.endsInWord left = true ∧ Text.startsWithWord right = true)
  | _, _ => True

/-- Leaves and blanks that begin and end with a leaf, with blanks between the words that meet. -/
structure Neat (ps : List (Option (List Char))) : Prop where
  begins : ∃ leaf rest, leaf ≠ [] ∧ ps = some leaf :: rest
  ends : ∃ rest leaf, leaf ≠ [] ∧ ps = rest ++ [some leaf]
  seams : ps.IsChain KeptApart

theorem startsWithWord_append {left : List Char} (filled : left ≠ []) (right : List Char) :
    Text.startsWithWord (left ++ right) = Text.startsWithWord left := by
  rw [Text.startsWithWord, Text.startsWithWord, List.head?_append_of_ne_nil _ filled]

theorem endsInWord_append (left : List Char) {right : List Char} (filled : right ≠ []) :
    Text.endsInWord (left ++ right) = Text.endsInWord right := by
  rw [Text.endsInWord, Text.endsInWord, List.getLast?_append_of_ne_nil _ filled]

theorem Neat.one {leaf : List Char} (filled : leaf ≠ []) : Neat [some leaf] :=
  ⟨⟨leaf, [], filled, rfl⟩, ⟨[], leaf, filled, rfl⟩, .singleton _⟩

theorem Neat.filled {ps : List (Option (List Char))} (neat : Neat ps) : render ps ≠ [] := by
  obtain ⟨leaf, rest, filled, rfl⟩ := neat.begins
  exact List.append_ne_nil_of_left_ne_nil filled _

theorem Neat.append {ps qs : List (Option (List Char))} (left : Neat ps) (right : Neat qs)
    (apart : ¬ (Text.endsInWord (render ps) = true ∧ Text.startsWithWord (render qs) = true)) :
    Neat (ps ++ qs) := by
  obtain ⟨⟨first, rest, solid, begins⟩, ⟨earlier, a, filled, rfl⟩, seams⟩ := left
  obtain ⟨⟨b, later, filled', rfl⟩, ⟨others, last, solid', ends⟩, seams'⟩ := right
  refine ⟨⟨first, rest ++ some b :: later, solid, ?_⟩, ⟨earlier ++ [some a] ++ others, last, solid', ?_⟩, ?_⟩
  · rw [begins, List.cons_append]
  · rw [ends, ← List.append_assoc]
  · rw [render_append, render, render, List.append_nil, endsInWord_append _ filled, render,
      startsWithWord_append filled'] at apart
    rw [List.append_assoc, List.singleton_append]
    exact List.isChain_append_cons_cons.mpr ⟨seams, apart, seams'⟩

theorem Neat.spaced {ps qs : List (Option (List Char))} (left : Neat ps) (right : Neat qs) :
    Neat (ps ++ none :: qs) := by
  obtain ⟨⟨first, rest, solid, begins⟩, ⟨earlier, a, filled, rfl⟩, seams⟩ := left
  obtain ⟨⟨b, later, filled', rfl⟩, ⟨others, last, solid', ends⟩, seams'⟩ := right
  refine ⟨⟨first, rest ++ none :: some b :: later, solid, ?_⟩,
    ⟨earlier ++ [some a] ++ none :: others, last, solid', ?_⟩, ?_⟩
  · rw [begins, List.cons_append]
  · rw [ends, ← List.cons_append, ← List.append_assoc]
  · rw [List.append_assoc, List.singleton_append]
    exact List.isChain_append_cons_cons.mpr ⟨seams, trivial, seams'.cons_cons trivial⟩

/-- Where no blank stands between two parts, no words meet. -/
theorem apart_of_not_spaced {kind : String} {left right : List Char}
    (close : ¬ Expr.spaced kind left right = true) :
    ¬ (Text.endsInWord left = true ∧ Text.startsWithWord right = true) := by
  rintro ⟨ends, starts⟩
  refine close ?_
  unfold Expr.spaced
  split
  · rename_i closing
    cases right with
    | nil => cases starts
    | cons c cs =>
      simp only [Text.startsWithClosing, List.head?_cons, Option.map_some, Option.getD_some,
        Bool.or_eq_true, beq_iff_eq] at closing
      rcases closing with (rfl | rfl) | rfl <;> cases starts
  · split
    · rfl
    · split
      · rename_i colon
        rw [colon] at ends
        cases ends
      · rw [ends, starts]
        rfl

theorem joinSet_begins (kind : String) (p : List (Option (List Char)))
    (parts : List (List (Option (List Char)))) : ∃ more, joinSet kind (p :: parts) = p ++ more := by
  cases parts with
  | nil => exact ⟨[], (List.append_nil p).symm⟩
  | cons q parts => exact ⟨_, rfl⟩

theorem neat_joinSet (kind : String) {parts : List (List (Option (List Char)))} (filled : parts ≠ [])
    (neat : ∀ p ∈ parts, Neat p) : Neat (joinSet kind parts) := by
  induction parts with
  | nil => exact absurd rfl filled
  | cons p parts ih =>
    cases parts with
    | nil => exact neat p List.mem_cons_self
    | cons q parts =>
      obtain ⟨first, others⟩ := List.forall_mem_cons.mp neat
      have rest := ih (List.cons_ne_nil q parts) others
      rw [joinSet]
      split
      · exact first.spaced rest
      · rename_i close
        refine first.append rest fun meet => apart_of_not_spaced close ⟨meet.1, ?_⟩
        obtain ⟨more, begins⟩ := joinSet_begins kind q parts
        rw [← startsWithWord_append (others q List.mem_cons_self).filled (render more), ← render_append,
          ← begins]
        exact meet.2

theorem neat_assembleSet (kind : String) {parts : List (List (Option (List Char)))}
    (filled : parts ≠ []) (neat : ∀ p ∈ parts, Neat p) : Neat (assembleSet kind parts) := by
  unfold assembleSet
  split
  · obtain ⟨left, operator, right⟩ : Neat _ ∧ Neat _ ∧ Neat _ := by simpa using neat
    exact left.spaced (operator.spaced right)
  · exact neat_joinSet kind filled neat

/-! ### Leaves that run on -/

/-- In the canonical text the leaf runs on into the rest, which is printed right behind it. -/
def RunsOn (e : Expr) (leaf rest : List Char) : Prop :=
  ∃ before after, e.typeset = before ++ some leaf :: after ∧ render after = rest ∧
    Go.Lexeme.Fuses leaf rest

theorem isToken_of_typeset {e : Expr} (leaves : ∀ leaf ∈ e.leafTexts, Go.Lexeme.IsToken leaf.toList) :
    ∀ token, some token ∈ e.typeset → Go.Lexeme.IsToken token := by
  intro token member
  have listed : token ∈ leavesOf e.typeset := List.mem_filterMap.mpr ⟨_, member, rfl⟩
  rw [leavesOf_typeset] at listed
  obtain ⟨leaf, hleaf, rfl⟩ := List.mem_map.mp listed
  exact leaves leaf hleaf

/-- Blanks keep words apart, so what runs on is something else. -/
theorem escapes_of_runsOn {e : Expr} (leaves : ∀ leaf ∈ e.leafTexts, Go.Lexeme.IsToken leaf.toList)
    (neat : Neat e.typeset) {leaf rest : List Char} (runs : e.RunsOn leaf rest) :
    Go.Lexeme.Escapes leaf rest := by
  obtain ⟨before, after, set, rfl, fuses⟩ := runs
  have all := isToken_of_typeset leaves
  rw [set] at all
  have alone := all leaf (by simp)
  refine ⟨Go.Lexeme.shape_of_fuses alone fuses, fun named => ?_, fun meet => ?_⟩
  · exact (Go.Lexeme.word_fuses_iff alone named _).mp fuses
  · have seams := neat.seams
    rw [set] at seams
    cases after with
    | nil => cases meet.2
    | cons next after =>
      cases next with
      | none => cases meet.2
      | some next =>
        have filled := (all next (by simp)).filled
        rw [render, startsWithWord_append filled] at meet
        exact (List.isChain_append_cons_cons.mp seams).2.1 meet

/-- If the leaves are tokens, they are the tokens of the canonical text unless one of them runs on. -/
theorem tokens_text_iff {e : Expr} (leaves : ∀ leaf ∈ e.leafTexts, Go.Lexeme.IsToken leaf.toList) :
    Go.Lexeme.tokens e.text = e.leafTexts ↔ ∀ leaf rest, ¬ e.RunsOn leaf rest := by
  have same := Go.Lexeme.tokens_iff (isToken_of_typeset leaves)
  rw [render_typeset, show e.typeset.filterMap id = _ from leavesOf_typeset e, List.map_map] at same
  have put : (e.leafTexts.map (String.ofList ∘ String.toList)) = e.leafTexts := by
    simp [Function.comp_def]
  rw [put] at same
  rw [text, same, Go.Lexeme.fused_iff]
  constructor
  · rintro apart leaf _ ⟨before, after, set, rfl, fuses⟩
    exact apart ⟨before, leaf, after, set, fuses⟩
  · rintro apart ⟨before, leaf, after, set, fuses⟩
    exact apart leaf _ ⟨before, after, set, rfl, fuses⟩

end Expr

end SwitchLint
