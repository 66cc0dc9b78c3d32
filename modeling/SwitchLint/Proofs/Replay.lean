import SwitchLint.Go.Derivation
import SwitchLint.Proofs.Extents

/-!
What replaying a derivation builds. The productions admit every node, and the leaves stand in the order
of the source.
-/

namespace SwitchLint.Go

namespace Tree

/-- What holds of a tree whenever it holds of its children holds of every tree. -/
theorem node_induction {motive : Tree → Prop} (leaf : ∀ as l, motive (.leaf as l))
    (node : ∀ kind children, (∀ c ∈ children, motive c.2) → motive (.node kind children)) (t : Tree) :
    motive t := by
  cases t with
  | leaf as l => exact leaf as l
  | node kind children =>
    exact node kind children fun c _ => node_induction leaf node c.2
termination_by sizeOf t
decreasing_by
  have child := List.sizeOf_lt_of_mem ‹c ∈ children›
  obtain ⟨field, t⟩ := c
  simp only [Tree.node.sizeOf_spec, Prod.mk.sizeOf_spec] at child ⊢
  omega

theorem childLeaves_eq (children : List (Option Field × Tree)) :
    childLeaves children = children.flatMap fun c => c.2.leaves := by
  induction children with
  | nil => rfl
  | cons c children ih => rw [childLeaves, List.flatMap_cons, ih]

/-- The productions admit every node of the tree. -/
inductive Admitted : Tree → Prop
  | leaf (as l) : Admitted (.leaf as l)
  | node {kind children} : kind.admits children = true → (∀ c ∈ children, Admitted c.2) →
      Admitted (.node kind children)

theorem Admitted.of_node {kind : Kind} {children : List (Option Field × Tree)}
    (admitted : (Tree.node kind children).Admitted) :
    kind.admits children = true ∧ ∀ c ∈ children, c.2.Admitted := by
  cases admitted with
  | node admits all => exact ⟨admits, all⟩

/-- The range of offsets of a leaf. -/
def rangeOf (leaf : Leaf × Lexeme) : Nat × Nat :=
  ((leafSpan leaf.1 leaf.2).start, (leafSpan leaf.1 leaf.2).stop)

end Tree

namespace Lexeme

theorem shape_of_isMark {l : Lexeme} (mark : l.isMark = true) : l.shape = .mark := by
  simp only [isMark, Bool.and_eq_true, beq_iff_eq] at mark
  exact mark.1

/-- A mark that `n` characters from its beginning falls into two marks. -/
structure Parts (n : Nat) (l : Lexeme) : Prop where
  whole : l.isMark = true
  first : (l.cut n).1.isMark = true
  second : (l.cut n).2.isMark = true

end Lexeme

namespace Step

/-- All that a step can do. -/
theorem perform_cases {p q : Progress} {s : Step} (performed : perform p s = some q) :
    (∃ as l ls, p.rest = l :: ls ∧ as ≠ .lineBreak ∧ as.fits l.shape = true ∧
      q = ⟨.leaf as l :: p.built, ls⟩) ∨
    (∃ n l ls, p.rest = l :: ls ∧ l.Parts n ∧
      q = ⟨p.built, (l.cut n).1 :: (l.cut n).2 :: ls⟩) ∨
    (∃ l b ls, p.rest = l :: ls ∧ l.newline = some b ∧
      q = ⟨.leaf .lineBreak l :: p.built, { l with newline := none } :: ls⟩) ∨
    (∃ (kind : Kind) (fields : List (Option Field)) (done earlier : List Tree),
      p.built = done ++ earlier ∧ fields.length = done.length ∧
      kind.admits (fields.zip done.reverse) = true ∧
      q = ⟨.node kind (fields.zip done.reverse) :: earlier, p.rest⟩) := by
  obtain ⟨built, rest⟩ := p
  cases s with
  | shift as =>
    cases rest with
    | nil => cases performed
    | cons l ls =>
      simp only [perform] at performed
      split at performed
      · rename_i looks
        simp only [Bool.and_eq_true, bne_iff_ne, ne_eq] at looks
        exact .inl ⟨as, l, ls, rfl, looks.1, looks.2, (Option.some.inj performed).symm⟩
      · cases performed
  | cut n =>
    cases rest with
    | nil => cases performed
    | cons l ls =>
      simp only [perform] at performed
      split at performed
      · rename_i marks
        simp only [Bool.and_eq_true] at marks
        exact .inr (.inl ⟨n, l, ls, rfl, ⟨marks.1.1, marks.1.2, marks.2⟩,
          (Option.some.inj performed).symm⟩)
      · cases performed
  | lineBreak =>
    cases rest with
    | nil => cases performed
    | cons l ls =>
      simp only [perform] at performed
      split at performed
      · rename_i line
        obtain ⟨b, line⟩ := Option.isSome_iff_exists.mp line
        exact .inr (.inr (.inl ⟨l, b, ls, rfl, line, (Option.some.inj performed).symm⟩))
      · cases performed
  | reduce kind fields =>
    simp only [perform] at performed
    split at performed
    · rename_i allowed
      simp only [Bool.and_eq_true, decide_eq_true_eq] at allowed
      refine .inr (.inr (.inr ⟨kind, fields, built.take fields.length, built.drop fields.length,
        (List.take_append_drop _ _).symm, ?_, allowed.2, (Option.some.inj performed).symm⟩))
      rw [List.length_take, Nat.min_eq_left allowed.1]
    · cases performed

/-- What every step preserves, replaying preserves. -/
theorem replay_preserves {holds : Progress → Prop}
    (step : ∀ p s q, holds p → perform p s = some q → holds q) {p q : Progress} {steps : List Step}
    (start : holds p) (replayed : replay p steps = some q) : holds q := by
  induction steps generalizing p with
  | nil => exact Option.some.inj replayed ▸ start
  | cons s steps ih =>
    rw [replay] at replayed
    split at replayed
    · rename_i next performed
      exact ih (step p s next start performed) replayed
    · cases replayed

/-- The productions admit all nodes that have been built. -/
def Progress.Admitted (p : Progress) : Prop := ∀ t ∈ p.built, t.Admitted

theorem perform_admitted {p q : Progress} {s : Step} (admitted : p.Admitted)
    (performed : perform p s = some q) : q.Admitted := by
  rcases perform_cases performed with ⟨as, l, ls, -, -, -, rfl⟩ | ⟨n, l, ls, -, -, rfl⟩ |
    ⟨l, b, ls, -, -, rfl⟩ | ⟨kind, fields, done, earlier, built, -, admits, rfl⟩
  · exact List.forall_mem_cons.mpr ⟨.leaf as l, admitted⟩
  · exact admitted
  · exact List.forall_mem_cons.mpr ⟨.leaf .lineBreak l, admitted⟩
  · rw [Progress.Admitted, built] at admitted
    refine List.forall_mem_cons.mpr ⟨.node admits fun c hc => ?_,
      fun t ht => admitted t (List.mem_append_right done ht)⟩
    have member := (List.of_mem_zip hc).2
    exact admitted c.2 (List.mem_append_left earlier (List.mem_reverse.mp member))

/-! ### The order of the leaves -/

namespace Progress

/-- The leaves of all trees, in the order of the source. -/
def leaves (p : Progress) : List (Leaf × Lexeme) := p.built.reverse.flatMap Tree.leaves

/-- The ranges of what has been read and of what has not. -/
def ranges (p : Progress) : List (Nat × Nat) :=
  p.leaves.map Tree.rangeOf ++ p.rest.flatMap Lexeme.ranges

/-- The property holds of all lexemes, those in trees and those that are left. -/
structure Holds (P : Lexeme → Prop) (p : Progress) : Prop where
  read : ∀ l ∈ p.leaves, P l.2
  rest : ∀ l ∈ p.rest, P l

/-- What has been read stands before what has not, each in the order of the source. -/
structure Orderly (p : Progress) : Prop where
  ranges : InOrder p.ranges
  measured : p.Holds Lexeme.Measured

end Progress

theorem cut_measured (n : Nat) {l : Lexeme} (measured : l.Measured) :
    (l.cut n).1.Measured ∧ (l.cut n).2.Measured := by
  constructor
  · simp [Lexeme.Measured, Lexeme.cut, Lexeme.finish]
  · simp only [Lexeme.Measured, Lexeme.cut, Lexeme.finish, String.toList_ofList] at measured ⊢
    rw [← Position.after_append, List.take_append_drop]
    exact measured

theorem rangeOf_mem (as : Leaf) (l : Lexeme) : Tree.rangeOf (as, l) ∈ l.ranges := by
  cases as with
  | lineBreak =>
    cases line : l.newline <;>
      simp [Tree.rangeOf, Tree.leafSpan, Lexeme.ranges, Lexeme.span, Position.upTo, line]
  | _ => simp [Tree.rangeOf, Tree.leafSpan, Lexeme.ranges, Lexeme.span, Position.upTo]

theorem leaves_cons (t : Tree) (built : List Tree) (rest rest' : List Lexeme) :
    (⟨t :: built, rest⟩ : Progress).leaves = (⟨built, rest'⟩ : Progress).leaves ++ t.leaves := by
  simp [Progress.leaves]

theorem leaves_reduce {kind : Kind} {fields : List (Option Field)} {done : List Tree}
    (length : fields.length = done.length) :
    (Tree.node kind (fields.zip done.reverse)).leaves = done.reverse.flatMap Tree.leaves := by
  rw [Tree.leaves, Tree.childLeaves_eq, ← List.flatMap_map Prod.snd Tree.leaves, List.map_snd_zip]
  exact Nat.le_of_eq (by rw [List.length_reverse, length])

theorem leaves_of_reduced {kind : Kind} {fields : List (Option Field)} {done : List Tree}
    (earlier : List Tree) (rest : List Lexeme) (length : fields.length = done.length) :
    (⟨.node kind (fields.zip done.reverse) :: earlier, rest⟩ : Progress).leaves =
      (⟨done ++ earlier, rest⟩ : Progress).leaves := by
  rw [leaves_cons _ _ _ rest, leaves_reduce length]
  simp [Progress.leaves]

/-- Steps change a lexeme only by cutting a mark and by taking the line break before it. -/
theorem perform_holds {P : Lexeme → Prop}
    (cut : ∀ n l, l.Parts n → P l → P (l.cut n).1 ∧ P (l.cut n).2)
    (unbroken : ∀ l, P l → P { l with newline := none }) {p q : Progress} {s : Step} (holds : p.Holds P)
    (performed : perform p s = some q) : q.Holds P := by
  obtain ⟨built, rest⟩ := p
  obtain ⟨read, unread⟩ := holds
  rcases perform_cases performed with ⟨as, l, ls, rfl, -, -, rfl⟩ | ⟨n, l, ls, rfl, mark, rfl⟩ |
    ⟨l, b, ls, rfl, line, rfl⟩ | ⟨kind, fields, done, earlier, rfl, length, -, rfl⟩
  · obtain ⟨first, unread⟩ := List.forall_mem_cons.mp unread
    refine ⟨?_, unread⟩
    rw [leaves_cons (.leaf as l) built ls (l :: ls)]
    exact List.forall_mem_append.mpr ⟨read, List.forall_mem_singleton.mpr first⟩
  · obtain ⟨first, unread⟩ := List.forall_mem_cons.mp unread
    obtain ⟨left, right⟩ := cut n l mark first
    exact ⟨read, List.forall_mem_cons.mpr ⟨left, List.forall_mem_cons.mpr ⟨right, unread⟩⟩⟩
  · obtain ⟨first, unread⟩ := List.forall_mem_cons.mp unread
    refine ⟨?_, List.forall_mem_cons.mpr ⟨unbroken l first, unread⟩⟩
    rw [leaves_cons (.leaf .lineBreak l) built _ (l :: ls)]
    exact List.forall_mem_append.mpr ⟨read, List.forall_mem_singleton.mpr first⟩
  · refine ⟨?_, unread⟩
    rw [leaves_of_reduced earlier rest length]
    exact read

theorem perform_orderly {p q : Progress} {s : Step} (orderly : p.Orderly)
    (performed : perform p s = some q) : q.Orderly := by
  refine ⟨?_, perform_holds (fun n l _ => cut_measured n) (fun l known => known) orderly.measured performed⟩
  obtain ⟨built, rest⟩ := p
  obtain ⟨ordered, -, unread⟩ := orderly
  rcases perform_cases performed with ⟨as, l, ls, rfl, -, -, rfl⟩ | ⟨n, l, ls, rfl, -, rfl⟩ |
    ⟨l, b, ls, rfl, line, rfl⟩ | ⟨kind, fields, done, earlier, rfl, length, -, rfl⟩
  · refine ordered.sublist ?_
    rw [Progress.ranges, Progress.ranges, leaves_cons (.leaf as l) built ls (l :: ls), List.map_append,
      List.append_assoc, List.flatMap_cons]
    exact (List.Sublist.refl _).append
      ((List.singleton_sublist.mpr (rangeOf_mem as l)).append (List.Sublist.refl _))
  · obtain ⟨left, right⟩ := cut_measured n (List.forall_mem_cons.mp unread).1
    have whole : InOrder ((⟨built, l :: ls⟩ : Progress).leaves.map Tree.rangeOf ++
        l.newline.toList.map (fun b => (b.start.offset, b.stop)) ++
        (l.start.offset, l.stop) :: ls.flatMap Lexeme.ranges) := by
      simpa [Progress.ranges, Lexeme.ranges] using ordered
    have parts := whole.cut left.upright right.upright
    simpa [Progress.ranges, Progress.leaves, Lexeme.ranges, Lexeme.cut] using parts
  · rw [Progress.ranges, leaves_cons (.leaf .lineBreak l) built _ (l :: ls)]
    simpa [Progress.ranges, Lexeme.ranges, Tree.leaves, Tree.rangeOf, Tree.leafSpan, line,
      Position.upTo] using ordered
  · rw [Progress.ranges, leaves_of_reduced earlier rest length]
    exact ordered

end Step

/-! ### The tree of a derivation -/

theorem Tree.ofSteps_eq_some {steps : List Step} {lexemes : List Lexeme} {t : Tree}
    (built : Tree.ofSteps steps lexemes = some t) :
    ∃ last, Step.replay ⟨[], lexemes⟩ steps = some ⟨[t], [last]⟩ := by
  unfold Tree.ofSteps at built
  split at built
  · rename_i t' last replayed
    split at built
    · exact ⟨last, Option.some.inj built ▸ replayed⟩
    · cases built
  · cases built

theorem Tree.ofSteps_admitted {steps : List Step} {lexemes : List Lexeme} {t : Tree}
    (built : Tree.ofSteps steps lexemes = some t) : t.Admitted := by
  obtain ⟨last, replayed⟩ := Tree.ofSteps_eq_some built
  have start : (⟨[], lexemes⟩ : Step.Progress).Admitted := by simp [Step.Progress.Admitted]
  exact Step.replay_preserves (fun p s q => Step.perform_admitted) start replayed t
    (List.mem_singleton_self t)

theorem Step.leaves_of_one (t : Tree) (rest : List Lexeme) :
    (⟨[t], rest⟩ : Step.Progress).leaves = t.leaves := by
  simp [Step.Progress.leaves]

/-- What holds of the lexemes holds of the leaves, if it holds of the parts of a mark. -/
theorem Tree.ofSteps_holds {P : Lexeme → Prop}
    (cut : ∀ n l, l.Parts n → P l → P (l.cut n).1 ∧ P (l.cut n).2)
    (unbroken : ∀ l, P l → P { l with newline := none }) {steps : List Step} {lexemes : List Lexeme}
    {t : Tree} (all : ∀ l ∈ lexemes, P l) (built : Tree.ofSteps steps lexemes = some t) :
    ∀ l ∈ t.leaves, P l.2 := by
  obtain ⟨last, replayed⟩ := Tree.ofSteps_eq_some built
  have start : (⟨[], lexemes⟩ : Step.Progress).Holds P := ⟨by simp [Step.Progress.leaves], all⟩
  have finish := Step.replay_preserves (fun p s q => Step.perform_holds cut unbroken) start replayed
  rw [← Step.leaves_of_one t [last]]
  exact finish.read

/-- The leaves of a tree that is built from a source stand in the order of the source. -/
theorem Tree.ofSteps_ordered {steps : List Step} {source : String} {t : Tree}
    (built : Tree.ofSteps steps (Lexeme.scan source) = some t) :
    InOrder (t.leaves.map Tree.rangeOf) ∧ ∀ l ∈ t.leaves, l.2.Measured := by
  obtain ⟨last, replayed⟩ := Tree.ofSteps_eq_some built
  obtain ⟨ordered, measured⟩ := Lexeme.scan_ranges source
  have start : (⟨[], Lexeme.scan source⟩ : Step.Progress).Orderly :=
    ⟨ordered, by simp [Step.Progress.leaves], measured⟩
  have finish := Step.replay_preserves (fun p s q => Step.perform_orderly) start replayed
  rw [← Step.leaves_of_one t [last]]
  exact ⟨finish.ranges.sublist (List.sublist_append_left _ _), finish.measured.read⟩

/-! ### What the leaves look like -/

/-- Every leaf that is no line break looks like what it is. -/
def Step.Progress.Fitting (p : Progress) : Prop :=
  ∀ l ∈ p.leaves, l.1 ≠ .lineBreak → l.1.fits l.2.shape = true

theorem Step.perform_fitting {p q : Progress} {s : Step} (fitting : p.Fitting)
    (performed : perform p s = some q) : q.Fitting := by
  obtain ⟨built, rest⟩ := p
  rcases perform_cases performed with ⟨as, l, ls, rfl, -, fits, rfl⟩ | ⟨n, l, ls, rfl, -, rfl⟩ |
    ⟨l, b, ls, rfl, -, rfl⟩ | ⟨kind, fields, done, earlier, rfl, length, -, rfl⟩
  · unfold Progress.Fitting
    rw [leaves_cons (.leaf as l) built ls (l :: ls)]
    exact List.forall_mem_append.mpr ⟨fitting, List.forall_mem_singleton.mpr fun _ => fits⟩
  · exact fitting
  · unfold Progress.Fitting
    rw [leaves_cons (.leaf .lineBreak l) built _ (l :: ls)]
    exact List.forall_mem_append.mpr ⟨fitting, List.forall_mem_singleton.mpr fun wrong => absurd rfl wrong⟩
  · unfold Progress.Fitting
    rw [leaves_of_reduced earlier rest length]
    exact fitting

theorem Tree.ofSteps_fitting {steps : List Step} {lexemes : List Lexeme} {t : Tree}
    (built : Tree.ofSteps steps lexemes = some t) :
    ∀ l ∈ t.leaves, l.1 ≠ .lineBreak → l.1.fits l.2.shape = true := by
  obtain ⟨last, replayed⟩ := Tree.ofSteps_eq_some built
  have start : (⟨[], lexemes⟩ : Step.Progress).Fitting := by
    simp [Step.Progress.Fitting, Step.Progress.leaves]
  have finish := Step.replay_preserves (fun p s q => Step.perform_fitting) start replayed
  rw [← Step.leaves_of_one t [last]]
  exact finish

/-! ### What no derivation reads -/

theorem Leaf.shape_of_fits {as : Leaf} {shape : Lexeme.Shape} (solid : as ≠ .lineBreak)
    (fits : as.fits shape = true) : shape ≠ .unknown ∧ shape ≠ .eof := by
  constructor <;> rintro rfl <;> cases as <;> first | exact solid rfl | cases fits

/-- Where no lexeme begins something is left to read. -/
def Step.Progress.Halted (p : Progress) : Prop := ∃ l ∈ p.rest, l.shape = .unknown

theorem Step.perform_halted {p q : Progress} {s : Step} (halted : p.Halted)
    (performed : perform p s = some q) : q.Halted := by
  obtain ⟨l', member, shape⟩ := halted
  rcases perform_cases performed with ⟨as, l, ls, rest, solid, fits, rfl⟩ |
    ⟨n, l, ls, rest, parts, rfl⟩ | ⟨l, b, ls, rest, line, rfl⟩ | ⟨kind, fields, done, earlier, -, -, -, rfl⟩
  · rw [rest] at member
    rcases List.mem_cons.mp member with rfl | later
    · exact absurd shape (Leaf.shape_of_fits solid fits).1
    · exact ⟨l', later, shape⟩
  · rw [rest] at member
    rcases List.mem_cons.mp member with rfl | later
    · rw [Lexeme.shape_of_isMark parts.whole] at shape
      cases shape
    · exact ⟨l', List.mem_cons_of_mem _ (List.mem_cons_of_mem _ later), shape⟩
  · rw [rest] at member
    rcases List.mem_cons.mp member with rfl | later
    · exact ⟨_, List.mem_cons_self, shape⟩
    · exact ⟨l', List.mem_cons_of_mem _ later, shape⟩
  · exact ⟨l', member, shape⟩

theorem Tree.ofSteps_known {steps : List Step} {lexemes : List Lexeme} {t : Tree}
    (built : Tree.ofSteps steps lexemes = some t) : ∀ l ∈ lexemes, l.shape ≠ .unknown := by
  intro l member unknown
  unfold Tree.ofSteps at built
  split at built
  · rename_i t' last replayed
    split at built
    · rename_i ends
      have start : (⟨[], lexemes⟩ : Step.Progress).Halted := ⟨l, member, unknown⟩
      obtain ⟨left, hleft, shape⟩ :=
        Step.replay_preserves (fun p s q => Step.perform_halted) start replayed
      obtain rfl := List.mem_singleton.mp hleft
      rw [ends] at shape
      cases shape
    · cases built
  · cases built

end SwitchLint.Go
