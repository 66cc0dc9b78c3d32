import SwitchLint.Proofs.KeptSwitches
import SwitchLint.Proofs.Places

/-!
The ranges of trees. A tree of a source has the range of a text that begins with its first leaf and ends
with its last, and the ranges of trees inside it that follow one another are arranged in its own.
-/

namespace SwitchLint

/-- Ranges inside another one, in order and without overlap. -/
structure Span.Arranges (outer : Span) (inners : List Span) : Prop where
  inside : ∀ s ∈ inners, outer.start ≤ s.start ∧ s.stop ≤ outer.stop
  apart : inners.Pairwise fun a b => a.stop ≤ b.start

namespace Span

theorem Arranges.sublist {outer : Span} {inners some : List Span} (arranges : outer.Arranges inners)
    (sub : some.Sublist inners) : outer.Arranges some :=
  ⟨fun s hs => arranges.inside s (sub.subset hs), arranges.apart.sublist sub⟩

end Span

namespace Go

/-! ### Ranges that follow one another -/

theorem InOrder.head_le {r : Nat × Nat} {ranges : List (Nat × Nat)} (ordered : InOrder ranges)
    (first : ranges.head? = some r) : ∀ s ∈ ranges, r.1 ≤ s.1 := by
  obtain ⟨later, rfl⟩ := List.head?_eq_some_iff.mp first
  intro s hs
  rcases List.mem_cons.mp hs with rfl | hs
  · exact Nat.le_refl _
  · have upright := ordered.upright r List.mem_cons_self
    exact Nat.le_trans upright ((List.pairwise_cons.mp ordered.apart).1 s hs)

theorem InOrder.le_getLast {r : Nat × Nat} {ranges : List (Nat × Nat)} (ordered : InOrder ranges)
    (last : ranges.getLast? = some r) : ∀ s ∈ ranges, s.2 ≤ r.2 := by
  obtain ⟨earlier, rfl⟩ := List.getLast?_eq_some_iff.mp last
  intro s hs
  rcases List.mem_append.mp hs with hs | hs
  · have upright := ordered.upright r (by simp)
    exact Nat.le_trans ((List.pairwise_append.mp ordered.apart).2.2 s hs r (by simp)) upright
  · obtain rfl := List.mem_singleton.mp hs
    exact Nat.le_refl _

namespace Tree

/-! ### Leaves -/

theorem isKind_of_admits {parent : Kind} {c : Option Field × Tree}
    (admitted : parent.admitsChild c = true) : c.2.isKind .sourceFile = false := by
  obtain ⟨f, t⟩ := c
  cases t with
  | leaf as l => rfl
  | node kind inner =>
    simp only [Kind.admitsChild, Bool.and_eq_true, bne_iff_ne] at admitted
    simp [isKind, kind?, admitted.1.1]

/-- Only a file can be empty, and no node begins with a line break. -/
theorem head_of_admits {kind : Kind} {children : List (Option Field × Tree)}
    (admits : kind.admits children = true) (inner : kind ≠ .sourceFile) :
    ∃ f t rest, children = (f, t) :: rest ∧ ∀ l, t ≠ leaf .lineBreak l := by
  have opens : kind.opensWith children = true := by
    simp only [Kind.admits, Bool.and_eq_true] at admits
    exact admits.1.1
  unfold Kind.opensWith at opens
  split at opens
  · exact absurd (eq_of_beq opens) inner
  · cases opens
  · rename_i filled solid
    obtain ⟨⟨f, t⟩, rest, rfl⟩ := List.exists_cons_of_ne_nil filled
    exact ⟨f, t, rest, rfl, fun l same => solid f l rest (by rw [same])⟩
  · exact ⟨none, _, _, rfl, fun l same => by cases same⟩
  · cases opens

/-- The productions leave no tree without leaves but an empty file, and a file stands in no other tree. -/
theorem filled_of_admitted {t : Tree} (admitted : t.Admitted) (inner : t.isKind .sourceFile = false) :
    t.leaves ≠ [] := by
  induction t using node_induction with
  | leaf as l => exact List.cons_ne_nil _ _
  | node kind children ih =>
    obtain ⟨admits, all⟩ := admitted.of_node
    have other : kind ≠ .sourceFile := by simpa [isKind, kind?] using inner
    obtain ⟨f, t, rest, rfl, -⟩ := head_of_admits admits other
    rw [leaves, childLeaves]
    refine List.append_ne_nil_of_left_ne_nil ?_ _
    have first : (f, t) ∈ (f, t) :: rest := List.mem_cons_self
    exact ih _ first (all _ first) (isKind_of_admits (children_of_admits admits _ first))

theorem filled_child {t : Tree} {c : Option Field × Tree} (admitted : t.Admitted) (child : c ∈ t.children) :
    c.2.leaves ≠ [] := by
  cases t with
  | leaf as l => cases child
  | node kind children =>
    obtain ⟨admits, all⟩ := admitted.of_node
    exact filled_of_admitted (all c child) (isKind_of_admits (children_of_admits admits c child))

theorem span_of_leaves {t : Tree} (filled : t.leaves ≠ []) : ∃ first last,
    t.opener = some first ∧ t.leaves.getLast? = some last ∧
      t.span = { leafSpan first.1 first.2 with stop := (leafSpan last.1 last.2).stop } := by
  have first := List.head?_eq_some_head filled
  have last := List.getLast?_eq_some_getLast filled
  refine ⟨_, _, first, last, ?_⟩
  rw [span, first_eq, opener, first, last_eq, last]
  rfl

/-! ### Trees inside a tree -/

/-- The trees have leaves, which follow one another among those of the list. -/
structure Spread (ts : List Tree) (among : List (Leaf × Lexeme)) : Prop where
  leaves : (ts.flatMap Tree.leaves).Sublist among
  filled : ∀ t ∈ ts, t.leaves ≠ []

theorem Spread.nil (among : List (Leaf × Lexeme)) : Spread [] among :=
  ⟨List.nil_sublist _, by simp⟩

theorem Spread.one {t : Tree} (filled : t.leaves ≠ []) : Spread [t] t.leaves :=
  ⟨by simp, by simpa using filled⟩

theorem Spread.mono {ts : List Tree} {among more : List (Leaf × Lexeme)} (spread : Spread ts among)
    (sub : among.Sublist more) : Spread ts more :=
  ⟨spread.leaves.trans sub, spread.filled⟩

theorem Spread.append {ts us : List Tree} {among more : List (Leaf × Lexeme)} (first : Spread ts among)
    (second : Spread us more) : Spread (ts ++ us) (among ++ more) where
  leaves := by
    rw [List.flatMap_append]
    exact first.leaves.append second.leaves
  filled := List.forall_mem_append.mpr ⟨first.filled, second.filled⟩

/-- Trees that follow one another inside a tree have their ranges arranged in its range. -/
theorem Spread.arranges {t : Tree} {ts : List Tree} (spread : Spread ts t.leaves)
    (ordered : InOrder (t.leaves.map rangeOf)) : t.span.Arranges (ts.map span) where
  inside := by
    rw [List.forall_mem_map]
    intro s hs
    have sub : s.leaves.Sublist t.leaves := by
      refine List.Sublist.trans ?_ spread.leaves
      rw [List.flatMap_def]
      exact List.sublist_flatten_of_mem (List.mem_map_of_mem hs)
    have filled := spread.filled s hs
    obtain ⟨first, last, opens, ends, range⟩ := span_of_leaves filled
    obtain ⟨first', last', opens', ends', range'⟩ :=
      span_of_leaves (t := t) fun none => filled (List.sublist_nil.mp (none ▸ sub))
    have member := sub.subset (List.mem_of_head? opens)
    have member' := sub.subset (List.mem_of_getLast? ends)
    rw [range, range']
    -- The leaves of the part are among those of the whole, whose outer ones bound them.
    constructor
    · exact ordered.head_le (by rw [List.head?_map, ← opener, opens']; rfl) (rangeOf first)
        (List.mem_map_of_mem member)
    · exact ordered.le_getLast (by rw [List.getLast?_map, ends']; rfl) (rangeOf last)
        (List.mem_map_of_mem member')
  apart := by
    have follow := (ordered.sublist (spread.leaves.map rangeOf)).apart
    rw [List.pairwise_map, List.pairwise_flatMap] at follow
    rw [List.pairwise_map]
    refine follow.2.imp_of_mem ?_
    intro a b ha hb behind
    obtain ⟨_, last, -, ends, range⟩ := span_of_leaves (spread.filled a ha)
    obtain ⟨first, _, opens, -, range'⟩ := span_of_leaves (spread.filled b hb)
    rw [range, range']
    exact behind last (List.mem_of_getLast? ends) first (List.mem_of_head? opens)

/-! ### Trees of a source -/

/-- A tree that is in place in the source. -/
structure StandsIn (source : List Char) (t : Tree) : Prop extends Placed t where
  lexemes : ∀ l ∈ t.leaves, l.2.StandsIn source

theorem leaves_of_children {t : Tree} {c : Option Field × Tree} (child : c ∈ t.children) :
    c.2.leaves.Sublist t.leaves := by
  cases t with
  | leaf as l => cases child
  | node kind children => exact leaves_of_child child

theorem StandsIn.child {source : List Char} {t : Tree} {c : Option Field × Tree}
    (stands : t.StandsIn source) (child : c ∈ t.children) : c.2.StandsIn source :=
  ⟨stands.toPlaced.child child, fun l hl => stands.lexemes l ((leaves_of_children child).subset hl)⟩

theorem mark_solid : Leaf.mark ≠ .lineBreak := by decide

/-- The range of a leaf is that of its text, but for a line break. -/
theorem leafSpan_behind {source : List Char} {l : Lexeme} (stands : l.StandsIn source) {as : Leaf}
    (solid : as ≠ .lineBreak) : ∃ before rest, source = before ++ l.text.toList ++ rest ∧
      leafSpan as l = Span.behind before l.text.toList ∧
      (l.shape = .word → ∀ c ∈ rest.head?, Text.isIdentifierPart c = false) := by
  obtain ⟨before, rest, whole, place, word⟩ := stands.text
  refine ⟨before, rest, whole, ?_, word⟩
  have here : leafSpan as l = l.span := by
    cases as <;> first | rfl | exact absurd rfl solid
  rw [here, Lexeme.span, stands.measured, Lexeme.finish, place, ← Position.after_append]
  rfl

theorem leaf_behind {source : List Char} (as : Leaf) {l : Lexeme} (stands : l.StandsIn source) :
    ∃ before text rest, source = before ++ text ++ rest ∧ leafSpan as l = Span.behind before text := by
  by_cases solid : as = .lineBreak
  · subst solid
    cases line : l.newline with
    | some b =>
      obtain ⟨before, run, rest, whole, range⟩ := stands.newline b line
      exact ⟨before, run, rest, whole, by simp [leafSpan, line, range]⟩
    | none =>
      have same : leafSpan .lineBreak l = leafSpan .mark l := by simp [leafSpan, line]
      obtain ⟨before, rest, whole, range, -⟩ := leafSpan_behind stands mark_solid
      exact ⟨before, l.text.toList, rest, whole, same.trans range⟩
  · obtain ⟨before, rest, whole, range, -⟩ := leafSpan_behind stands solid
    exact ⟨before, l.text.toList, rest, whole, range⟩

/-- A tree has the range of the text that begins with its first leaf. -/
theorem StandsIn.behind {source : List Char} {t : Tree} (stands : t.StandsIn source)
    {first : Leaf × Lexeme} (opens : t.opener = some first) {before text rest : List Char}
    (whole : source = before ++ text ++ rest)
    (range : leafSpan first.1 first.2 = Span.behind before text) :
    ∃ more rest', rest = more ++ rest' ∧ t.span = Span.behind before (text ++ more) := by
  have filled : t.leaves ≠ [] := by
    intro none
    rw [opener, none] at opens
    cases opens
  obtain ⟨_, last, opens', ends, through⟩ := span_of_leaves filled
  obtain rfl := Option.some.inj (opens.symm.trans opens')
  obtain ⟨before', text', rest', whole', range'⟩ :=
    leaf_behind last.1 (stands.lexemes last (List.mem_of_getLast? ends))
  have order : (Span.behind before text).stop ≤ (Span.behind before' text').stop := by
    rw [← range, ← range']
    exact stands.ordered.le_getLast (by rw [List.getLast?_map, ends]; rfl) (rangeOf first)
      (List.mem_map_of_mem (List.mem_of_head? opens))
  obtain ⟨more, rest_eq, joined⟩ := Span.behind_through whole whole' order
  exact ⟨more, rest', rest_eq, by rw [through, range, range', joined]⟩

theorem StandsIn.covers {source : String} {t : Tree} (stands : t.StandsIn source.toList)
    (filled : t.leaves ≠ []) : ∃ text, t.span.Covers source text := by
  obtain ⟨first, -, opens, -, -⟩ := span_of_leaves filled
  obtain ⟨before, text, rest, whole, range⟩ :=
    leaf_behind first.1 (stands.lexemes first (List.mem_of_head? opens))
  obtain ⟨more, rest', rfl, joined⟩ := stands.behind opens whole range
  have whole' : source.toList = before ++ (text ++ more) ++ rest' := by simp [whole]
  rw [joined]
  exact ⟨_, Span.behind_covers whole'⟩

/-- A node that has to begin with a keyword has the range of a text that does, and the keyword ends there. -/
theorem StandsIn.covers_keyword {source : String} {kind : Kind} {children : List (Option Field × Tree)}
    {keyword : String} (stands : (node kind children).StandsIn source.toList)
    (opening : kind.opening? = some keyword)
    (lettered : ∃ c ∈ keyword.toList, Text.isIdentifierPart c = true) :
    ∃ text : String, (node kind children).span.Covers source (keyword ++ text) ∧
      ∀ c ∈ text.toList.head?, Text.isIdentifierPart c = false := by
  have admits := stands.admitted.of_node.1
  obtain ⟨l, others, rfl, rfl⟩ := opener_of_admits opening admits
  have opens : (node kind ((none, leaf .mark l) :: others)).opener = some (.mark, l) := rfl
  have lexeme := stands.lexemes (.mark, l) (List.mem_of_head? opens)
  obtain ⟨before, rest, whole, range, word⟩ := leafSpan_behind lexeme mark_solid
  have shape : l.shape = .word := by
    have fits := children_of_admits admits _ List.mem_cons_self
    simp only [Kind.admitsChild, Bool.and_eq_true, Leaf.fits, Bool.or_eq_true, beq_iff_eq] at fits
    obtain ⟨c, member, part⟩ := lettered
    rcases fits.1.1 with (mark | word) | nul
    · exact absurd part (by simp [lexeme.symbols (.inl mark) c member])
    · exact word
    · exact absurd part (by simp [lexeme.symbols (.inr nul) c member])
  obtain ⟨more, rest', rfl, joined⟩ := stands.behind opens whole range
  have whole' : source.toList = before ++ (l.text.toList ++ more) ++ rest' := by simp [whole]
  refine ⟨String.ofList more, ?_, fun c hc => word shape c ?_⟩
  · rw [joined, ← String.ofList_toList (s := l.text), ← String.ofList_append, String.toList_ofList]
    exact Span.behind_covers whole'
  · rw [String.toList_ofList] at hc
    cases more with
    | nil => cases hc
    | cons d more => exact hc

end Tree

end Go

end SwitchLint
