import SwitchLint.Proofs.Typesetting

/-!
What stands between the leaves of a canonical text. Each leaf is printed once and in its place, and two
words that follow one another are kept apart, at whatever depth they meet.
-/

namespace SwitchLint

open Text (endsInWord startsWithWord)

/-- In what two leaves that follow one another meet: the innermost expression that holds both. -/
inductive Joint where
  | selector
  | node
  deriving DecidableEq, Repr

/-- What is printed between two leaves that follow one another. -/
inductive Gap where
  | nothing
  | blank
  | dot
  deriving DecidableEq, Repr

def Gap.chars : Gap → List Char
  | nothing => []
  | blank => [' ']
  | dot => ['.']

namespace Expr

mutual

/-- The texts of the leaves, from left to right. -/
def leaves : Expr → List String
  | ident name _ => [name]
  | selector base field _ => base.leaves ++ field.leaves
  | token _ text _ => [text]
  | node _ children _ => leavesOfAll children

/-- `leaves` of all expressions of the list. -/
def leavesOfAll : List Expr → List String
  | [] => []
  | e :: es => e.leaves ++ leavesOfAll es

end

mutual

/-- In what the leaves meet: one joint for each two that follow one another. -/
def joints : Expr → List Joint
  | ident _ _ => []
  | selector base field _ => base.joints ++ .selector :: field.joints
  | token _ _ _ => []
  | node _ children _ => jointsOfAll children

/-- The joints of the expressions of a list, which meet in a node. -/
def jointsOfAll : List Expr → List Joint
  | [] => []
  | [e] => e.joints
  | e :: e' :: es => e.joints ++ .node :: jointsOfAll (e' :: es)

end

mutual

/-- No name and no token is empty, and every node has a child. -/
def Filled : Expr → Prop
  | ident name _ => name ≠ ""
  | selector base field _ => base.Filled ∧ field.Filled
  | token _ text _ => text ≠ ""
  | node _ children _ => children ≠ [] ∧ FilledAll children

/-- All expressions of the list are filled. -/
def FilledAll : List Expr → Prop
  | [] => True
  | e :: es => e.Filled ∧ FilledAll es

end

/-- Leaves with gaps between them, as many as there are. -/
def interleave : List String → List Gap → List Char
  | [], _ => []
  | leaf :: leaves, [] => leaf.toList ++ interleave leaves []
  | leaf :: leaves, gap :: gaps => leaf.toList ++ (gap.chars ++ interleave leaves gaps)

/-! ### Leaves with the gaps that they need -/

/-- The text is made of the leaves and the gaps: a dot exactly where two leaves meet in a selector, and
something where two words meet. -/
inductive Sets : List String → List Joint → List Gap → List Char → Prop where
  | one {leaf : String} (filled : leaf ≠ "") : Sets [leaf] [] [] leaf.toList
  | more {leaf next : String} {leaves : List String} {joint : Joint} {joints : List Joint} {gap : Gap}
      {gaps : List Gap} {text : List Char} (filled : leaf ≠ "") (dot : gap = .dot ↔ joint = .selector)
      (apart : endsInWord leaf.toList = true → startsWithWord next.toList = true → gap ≠ .nothing)
      (rest : Sets (next :: leaves) joints gaps text) :
      Sets (leaf :: next :: leaves) (joint :: joints) (gap :: gaps) (leaf.toList ++ (gap.chars ++ text))

theorem toList_ne_nil {leaf : String} (filled : leaf ≠ "") : leaf.toList ≠ [] :=
  fun empty => filled (String.toList_eq_nil_iff.mp empty)

namespace Sets

variable {leaves : List String} {joints : List Joint} {gaps : List Gap} {text : List Char}

theorem filled (sets : Sets leaves joints gaps text) : text ≠ [] := by
  cases sets with
  | one filled => exact toList_ne_nil filled
  | more filled => exact List.append_ne_nil_of_left_ne_nil (toList_ne_nil filled) _

theorem begins (sets : Sets leaves joints gaps text) :
    ∃ leaf more, leaves = leaf :: more ∧ startsWithWord leaf.toList = startsWithWord text := by
  cases sets with
  | one filled => exact ⟨_, _, rfl, rfl⟩
  | more filled => exact ⟨_, _, rfl, (startsWithWord_append (toList_ne_nil filled) _).symm⟩

/-- Two such texts are put together with a gap between them that keeps their words apart. -/
theorem append {leaves' : List String} {joints' : List Joint} {gaps' : List Gap} {text' : List Char}
    (left : Sets leaves joints gaps text) (joint : Joint) (gap : Gap)
    (right : Sets leaves' joints' gaps' text') (dot : gap = .dot ↔ joint = .selector)
    (apart : endsInWord text = true → startsWithWord text' = true → gap ≠ .nothing) :
    Sets (leaves ++ leaves') (joints ++ joint :: joints') (gaps ++ gap :: gaps')
      (text ++ (gap.chars ++ text')) := by
  induction left with
  | one filled =>
    obtain ⟨next, more, rfl, starts⟩ := right.begins
    rw [← starts] at apart
    exact .more filled dot apart right
  | more filled dot' apart' rest ih =>
    rw [endsInWord_append _ (List.append_ne_nil_of_right_ne_nil _ rest.filled),
      endsInWord_append _ rest.filled] at apart
    simpa [List.append_assoc] using Sets.more filled dot' apart' (ih apart)

/-- There is a gap fewer than leaves, and what is between the leaves of the text are the gaps. -/
theorem interleaved (sets : Sets leaves joints gaps text) :
    gaps.length + 1 = leaves.length ∧ joints.length = gaps.length ∧ text = interleave leaves gaps := by
  induction sets with
  | one filled => simp [interleave]
  | more filled dot apart rest ih => simp [interleave, ih]

theorem dot_iff (sets : Sets leaves joints gaps text) (i : Nat) :
    gaps[i]? = some .dot ↔ joints[i]? = some .selector := by
  induction sets generalizing i with
  | one filled => simp
  | more filled dot apart rest ih =>
    cases i with
    | zero => simpa using dot
    | succ i => simpa using ih i

theorem words_apart (sets : Sets leaves joints gaps text) {i : Nat} {left right : String}
    (here : leaves[i]? = some left) (next : leaves[i + 1]? = some right)
    (ends : endsInWord left.toList = true) (starts : startsWithWord right.toList = true) :
    ∃ gap, gaps[i]? = some gap ∧ gap ≠ .nothing := by
  induction sets generalizing i with
  | one filled => simp at next
  | more filled dot apart rest ih =>
    cases i with
    | zero =>
      obtain rfl := Option.some.inj here
      obtain rfl := Option.some.inj next
      exact ⟨_, rfl, apart ends starts⟩
    | succ i => exact ih here next

end Sets

/-! ### Canonical texts -/

/-- The canonical text is made of the leaves with the gaps that they need. -/
def IsSet (e : Expr) : Prop := ∃ gaps, Sets e.leaves e.joints gaps e.chars

theorem joinParts_begins (kind : String) (p : List Char) (parts : List (List Char)) :
    ∃ more, joinParts kind (p :: parts) = p ++ more := by
  cases parts with
  | nil => exact ⟨[], (List.append_nil p).symm⟩
  | cons q parts => exact ⟨_, rfl⟩

theorem sets_selector {base field : Expr} (left : base.IsSet) (right : field.IsSet) (span : Span) :
    (selector base field span).IsSet := by
  obtain ⟨gaps, left⟩ := left
  obtain ⟨gaps', right⟩ := right
  exact ⟨_, left.append .selector .dot right (iff_of_true rfl rfl) fun _ _ => by simp⟩

/-- The parts of a node, with blanks where they belong. -/
theorem sets_joinParts (kind : String) {es : List Expr} (several : es ≠ []) (all : ∀ e ∈ es, e.IsSet) :
    ∃ gaps, Sets (leavesOfAll es) (jointsOfAll es) gaps (joinParts kind (charsOfAll es)) := by
  induction es with
  | nil => exact absurd rfl several
  | cons e es ih =>
    obtain ⟨⟨gaps, first⟩, others⟩ := List.forall_mem_cons.mp all
    cases es with
    | nil =>
      rw [leavesOfAll, leavesOfAll, List.append_nil]
      exact ⟨gaps, first⟩
    | cons e' es =>
      obtain ⟨gaps', rest⟩ := ih (List.cons_ne_nil e' es) others
      obtain ⟨_, second⟩ := others e' List.mem_cons_self
      obtain ⟨more, begins⟩ := joinParts_begins kind e'.chars (charsOfAll es)
      rw [leavesOfAll, jointsOfAll, charsOfAll, charsOfAll, joinParts, ← charsOfAll]
      split
      · exact ⟨_, first.append .node .blank rest (by decide) fun _ _ => by simp⟩
      · rename_i close
        refine ⟨_, first.append .node .nothing rest (by decide) fun ends starts => ?_⟩
        rw [charsOfAll, begins, startsWithWord_append second.filled] at starts
        exact absurd ⟨ends, starts⟩ (apart_of_not_spaced close)

theorem sets_assemble (kind : String) {es : List Expr} (several : es ≠ []) (all : ∀ e ∈ es, e.IsSet) :
    ∃ gaps, Sets (leavesOfAll es) (jointsOfAll es) gaps (assemble kind (charsOfAll es)) := by
  have joined := sets_joinParts kind several all
  unfold assemble
  split
  · rename_i left operator right _ three
    -- Three parts with a blank on either side of the one in the middle.
    obtain ⟨a, b, c, rfl⟩ : ∃ a b c, es = [a, b, c] := by
      rcases es with _ | ⟨a, _ | ⟨b, _ | ⟨c, _ | ⟨d, es⟩⟩⟩⟩ <;> simp [charsOfAll] at three
      exact ⟨a, b, c, rfl⟩
    obtain ⟨⟨_, first⟩, ⟨_, second⟩, ⟨_, third⟩⟩ : a.IsSet ∧ b.IsSet ∧ c.IsSet := by simpa using all
    simp only [charsOfAll, List.cons.injEq, and_true] at three
    obtain ⟨rfl, rfl, rfl⟩ := three
    have behind := second.append .node .blank third (by decide) fun _ _ => by simp
    have whole := first.append .node .blank behind (by decide) fun _ _ => by simp
    rw [leavesOfAll, leavesOfAll, leavesOfAll, leavesOfAll, List.append_nil]
    exact ⟨_, whole⟩
  · exact joined

mutual

theorem isSet_of_filled : ∀ e : Expr, e.Filled → e.IsSet
  | ident _ _, filled => ⟨[], .one filled⟩
  | selector base field span, filled =>
    sets_selector (isSet_of_filled base filled.1) (isSet_of_filled field filled.2) span
  | token _ _ _, filled => ⟨[], .one filled⟩
  | node kind children _, filled =>
    sets_assemble kind filled.1 (allSet_of_filled children filled.2)

theorem allSet_of_filled : ∀ es : List Expr, FilledAll es → ∀ e ∈ es, e.IsSet
  | [], _ => List.forall_mem_nil _
  | e :: es, filled =>
    List.forall_mem_cons.mpr ⟨isSet_of_filled e filled.1, allSet_of_filled es filled.2⟩

end

/-- The canonical text is the leaves from left to right, each once, with nothing, a blank or a dot between
each two: a dot exactly where they meet in a selector, and not nothing where a word ends and another one
begins. -/
theorem text_interleaves_leaves (e : Expr) (filled : e.Filled) :
    ∃ gaps : List Gap, gaps.length + 1 = e.leaves.length ∧ e.joints.length = gaps.length ∧
      e.text = String.ofList (interleave e.leaves gaps) ∧
      (∀ i : Nat, gaps[i]? = some Gap.dot ↔ e.joints[i]? = some Joint.selector) ∧
      ∀ (i : Nat) (left right : String), e.leaves[i]? = some left → e.leaves[i + 1]? = some right →
        endsInWord left.toList = true → startsWithWord right.toList = true →
        ∃ gap, gaps[i]? = some gap ∧ gap ≠ Gap.nothing := by
  obtain ⟨gaps, sets⟩ := isSet_of_filled e filled
  obtain ⟨fewer, joined, same⟩ := sets.interleaved
  refine ⟨gaps, fewer, joined, congrArg String.ofList same, sets.dot_iff, ?_⟩
  intro i left right here next ends starts
  exact sets.words_apart here next ends starts

/-- A field of what a call returns: two words meet one level below the bracket that stands before them. -/
def lengthOfChannel : Expr :=
  select
    (.node "call_expression" [.ident "make" ⟨0, 4, 1, 1⟩,
      .node "argument_list" [.token "(" "(" ⟨4, 5, 1, 5⟩,
        .node "channel_type" [.token "chan" "chan" ⟨5, 9, 1, 6⟩, .ident "int" ⟨10, 13, 1, 11⟩]
          ⟨5, 13, 1, 6⟩,
        .token ")" ")" ⟨13, 14, 1, 14⟩] ⟨4, 14, 1, 5⟩] ⟨0, 14, 1, 1⟩)
    (.ident "len" ⟨15, 18, 1, 16⟩)

theorem text_interleaves_leaves_of_channel :
    lengthOfChannel.Filled ∧ lengthOfChannel.leaves = ["make", "(", "chan", "int", ")", "len"] ∧
      ∃ gaps, "make(chan int).len" = String.ofList (interleave lengthOfChannel.leaves gaps) ∧
        gaps[4]? = some .dot ∧ ∃ gap, gaps[2]? = some gap ∧ gap ≠ .nothing := by
  have filled : lengthOfChannel.Filled := by simp [lengthOfChannel, select, Filled, FilledAll]
  obtain ⟨gaps, -, -, text, dot, apart⟩ := text_interleaves_leaves lengthOfChannel filled
  have printed : lengthOfChannel.text = "make(chan int).len" := by decide +kernel
  exact ⟨filled, by decide, gaps, printed.symm.trans text, (dot 4).mpr (by decide),
    apart 2 "chan" "int" (by decide) (by decide) (by decide +kernel) (by decide +kernel)⟩

end Expr

end SwitchLint
