import SwitchLint.Proofs.Tiling

/-!
The places that lexemes and line breaks take up. In a scan they follow one another without overlapping,
the line break that a lexeme remembers before the lexeme itself.
-/

namespace SwitchLint

namespace Position

theorem advance_offset (p : Position) (c : Char) : p.offset < (p.advance c).offset := by
  unfold advance
  split
  · exact Nat.lt_succ_self _
  · exact Nat.lt_add_of_pos_right c.utf8Size_pos

theorem le_after (p : Position) (cs : List Char) : p.offset ≤ (p.after cs).offset := by
  induction cs generalizing p with
  | nil => exact Nat.le_refl _
  | cons c cs ih => exact Nat.le_trans (Nat.le_of_lt (p.advance_offset c)) (ih (p.advance c))

theorem lt_after (p : Position) {cs : List Char} (some : cs ≠ []) : p.offset < (p.after cs).offset := by
  obtain ⟨c, cs, rfl⟩ := List.exists_cons_of_ne_nil some
  exact Nat.lt_of_lt_of_le (p.advance_offset c) (le_after (p.advance c) cs)

end Position

namespace Go

/-- Ranges of offsets that follow one another. -/
structure InOrder (ranges : List (Nat × Nat)) : Prop where
  apart : ranges.Pairwise fun a b => a.2 ≤ b.1
  upright : ∀ r ∈ ranges, r.1 ≤ r.2

theorem InOrder.sublist {ranges some : List (Nat × Nat)} (ordered : InOrder ranges)
    (sub : some.Sublist ranges) : InOrder some :=
  ⟨ordered.apart.sublist sub, fun r hr => ordered.upright r (sub.subset hr)⟩

/-- A range can be cut in two. -/
theorem InOrder.cut {before after : List (Nat × Nat)} {a b c : Nat}
    (ordered : InOrder (before ++ (a, c) :: after)) (left : a ≤ b) (right : b ≤ c) :
    InOrder (before ++ (a, b) :: (b, c) :: after) := by
  obtain ⟨first, ⟨whole, rest⟩, cross⟩ := by
    simpa only [List.pairwise_append, List.pairwise_cons] using ordered.apart
  constructor
  · refine List.pairwise_append.mpr ⟨first, ?_, fun x hx y hy => ?_⟩
    · refine List.pairwise_cons.mpr ⟨fun y hy => ?_, List.pairwise_cons.mpr ⟨whole, rest⟩⟩
      rcases List.mem_cons.mp hy with rfl | hy
      · exact Nat.le_refl b
      · exact Nat.le_trans right (whole y hy)
    · have start := cross x hx (a, c) List.mem_cons_self
      rcases List.mem_cons.mp hy with rfl | hy
      · exact start
      · rcases List.mem_cons.mp hy with rfl | hy
        · exact Nat.le_trans start left
        · exact cross x hx y (List.mem_cons_of_mem _ hy)
  · intro r hr
    simp only [List.mem_append, List.mem_cons] at hr
    rcases hr with hr | rfl | rfl | hr
    · exact ordered.upright r (List.mem_append_left _ hr)
    · exact left
    · exact right
    · exact ordered.upright r (List.mem_append_right _ (List.mem_cons_of_mem _ hr))

/-- Ranges behind an offset can go before ranges that start no earlier. -/
theorem InOrder.append {before after : List (Nat × Nat)} {p : Nat} (first : InOrder before)
    (second : InOrder after) (ends : ∀ r ∈ before, r.2 ≤ p) (starts : ∀ r ∈ after, p ≤ r.1) :
    InOrder (before ++ after) where
  apart := List.pairwise_append.mpr
    ⟨first.apart, second.apart, fun a ha b hb => Nat.le_trans (ends a ha) (starts b hb)⟩
  upright r hr := (List.mem_append.mp hr).elim (first.upright r) (second.upright r)

namespace Lexeme

/-- The lexeme ends where its text does. -/
def Measured (l : Lexeme) : Prop := l.stop = l.finish.offset

/-- The ranges of the line break before a lexeme and of the lexeme itself. -/
def ranges (l : Lexeme) : List (Nat × Nat) :=
  l.newline.toList.map (fun b => (b.start.offset, b.stop)) ++ [(l.start.offset, l.stop)]

/-! ### The line break in a gap -/

theorem skipGap_stop (fuel : Nat) (p : Position) (b : Option Break) (cs : List Char)
    (enough : cs.length ≤ fuel) : p.offset ≤ (skipGap fuel p b cs).stop.offset := by
  obtain ⟨read, -, place⟩ := (skipGap_spec fuel p b cs enough).1.behind
  exact Nat.le_trans (Position.le_after p read) (Nat.le_of_eq (congrArg Position.offset place).symm)

/-- A gap goes on through the line feeds that it begins with. -/
theorem skipGap_feeds (fuel : Nat) (p : Position) (b : Option Break) (cs : List Char)
    (enough : cs.length ≤ fuel) :
    p.offset + (cs.takeWhile (· == '\n')).length ≤ (skipGap fuel p b cs).stop.offset := by
  induction cs generalizing fuel p b with
  | nil => exact skipGap_stop fuel p b [] enough
  | cons c cs ih =>
    obtain ⟨fuel, rfl⟩ := Nat.exists_eq_add_one_of_ne_zero (Nat.ne_zero_of_lt enough)
    by_cases feed : c = '\n'
    · subst feed
      have further : (p.advance '\n').offset = p.offset + 1 := rfl
      rw [List.takeWhile_cons_of_pos (by decide), List.length_cons]
      simp only [skipGap, if_true]
      refine Nat.le_trans ?_ (ih fuel (p.advance '\n') _ (Nat.le_of_succ_le_succ enough))
      omega
    · rw [List.takeWhile_cons_of_neg (by simpa using feed)]
      exact skipGap_stop (fuel + 1) p b (c :: cs) enough

theorem skipGap_keeps (fuel : Nat) (p : Position) (b : Break) (cs : List Char) :
    (skipGap fuel p (some b) cs).newline = some b := by
  induction fuel generalizing p cs with
  | zero => rfl
  | succ fuel ih =>
    unfold skipGap
    split
    · rfl
    · split
      · exact ih _ _
      · split
        · exact ih _ _
        · split
          · exact ih _ _
          · rfl

/-- The line break of a gap stands inside it. -/
theorem skipGap_newline (fuel : Nat) (p : Position) (cs : List Char) (enough : cs.length ≤ fuel) :
    ∀ b ∈ (skipGap fuel p none cs).newline, p.offset ≤ b.start.offset ∧ b.start.offset ≤ b.stop ∧
      b.stop ≤ (skipGap fuel p none cs).stop.offset := by
  induction fuel generalizing p cs with
  | zero => simp [skipGap]
  | succ fuel ih =>
    intro b hb
    cases cs with
    | nil => cases hb
    | cons c cs =>
      have shorter : cs.length ≤ fuel := Nat.le_of_succ_le_succ enough
      by_cases feed : c = '\n'
      · simp only [skipGap, if_pos feed, Option.none_or] at hb ⊢
        obtain rfl := Option.some.inj ((skipGap_keeps fuel _ _ cs).symm.trans hb)
        refine ⟨Nat.le_refl _, ?_, ?_⟩
        · dsimp only
          omega
        · have further : (p.advance c).offset = p.offset + 1 := by simp [Position.advance, feed]
          have run := skipGap_feeds fuel (p.advance c)
            (some ⟨p, p.offset + 1 + (cs.takeWhile (· == '\n')).length⟩) cs shorter
          rw [further] at run
          exact run
      · rcases skipGap_succ fuel p none (c :: cs) with ⟨_, stays⟩ | ⟨_, _, positive, b', same, goes⟩
        · rw [stays] at hb
          cases hb
        · obtain rfl := same (by simpa using feed)
          rw [goes] at hb ⊢
          have shorter : ((c :: cs).drop (stride (c :: cs))).length ≤ fuel := by
            rw [List.length_drop]
            omega
          obtain ⟨first, upright, last⟩ := ih _ _ shorter b hb
          exact ⟨Nat.le_trans (Position.le_after p _) first, upright, last⟩

/-! ### The lexemes of a scan -/

theorem Measured.upright {l : Lexeme} (measured : l.Measured) : l.start.offset ≤ l.stop := by
  rw [measured]
  exact Position.le_after l.start l.text.toList

theorem ranges_between {l : Lexeme} {p : Nat} (measured : l.Measured) (starts : p ≤ l.start.offset)
    (newline : ∀ b ∈ l.newline, p ≤ b.start.offset ∧ b.start.offset ≤ b.stop ∧
      b.stop ≤ l.start.offset) :
    InOrder l.ranges ∧ ∀ r ∈ l.ranges, p ≤ r.1 ∧ r.2 ≤ l.stop := by
  have upright := measured.upright
  unfold ranges
  cases line : l.newline with
  | none =>
    refine ⟨⟨List.pairwise_singleton _ _, ?_⟩, ?_⟩
    · simpa using upright
    · simpa using starts
  | some b =>
    obtain ⟨first, ordered, last⟩ := newline b (by simp [line])
    refine ⟨⟨?_, ?_⟩, ?_⟩
    · simpa using last
    · simpa using ⟨ordered, upright⟩
    · simpa using ⟨⟨first, Nat.le_trans last upright⟩, starts⟩

theorem scanFrom_ranges (fuel : Nat) (p : Position) (cs : List Char) :
    InOrder ((scanFrom fuel p cs).flatMap ranges) ∧
      (∀ r ∈ (scanFrom fuel p cs).flatMap ranges, p.offset ≤ r.1) ∧
      ∀ l ∈ scanFrom fuel p cs, l.Measured := by
  induction fuel generalizing p cs with
  | zero =>
    obtain ⟨ordered, bounds⟩ := ranges_between (l := ⟨.eof, "", p, p.offset, none⟩) (p := p.offset) rfl
      (Nat.le_refl _) (by simp)
    refine ⟨?_, ?_, ?_⟩
    · simpa [scanFrom] using ordered
    · intro r hr
      exact (bounds r (by simpa [scanFrom] using hr)).1
    · intro l hl
      obtain rfl := List.mem_singleton.mp hl
      rfl
  | succ fuel ih =>
    have newline := skipGap_newline cs.length p cs (Nat.le_refl _)
    have stop := skipGap_stop cs.length p none cs (Nat.le_refl _)
    obtain ⟨l, start, line, measured, begins, run⟩ := scanFrom_succ fuel p cs
    rw [← start, ← line] at newline
    rw [← start] at stop
    obtain ⟨ordered, bounds⟩ := ranges_between measured stop newline
    rcases run with ⟨-, run⟩ | ⟨-, run⟩
    · rw [run, List.flatMap_singleton]
      refine ⟨ordered, fun r hr => (bounds r hr).1, fun l' hl' => ?_⟩
      obtain rfl := List.mem_singleton.mp hl'
      exact measured
    · obtain ⟨tail, later, all⟩ := ih (l.start.after l.text.toList) _
      rw [run, ← start, ← begins.2, List.flatMap_cons]
      have behind : l.stop = (l.start.after l.text.toList).offset := measured
      refine ⟨ordered.append tail (fun r hr => (bounds r hr).2) ?_, fun r hr => ?_, fun l' hl' => ?_⟩
      · rw [behind]
        exact later
      · rcases List.mem_append.mp hr with hr | hr
        · exact (bounds r hr).1
        · refine Nat.le_trans (Nat.le_trans stop (Measured.upright measured)) ?_
          rw [behind]
          exact later r hr
      · rcases List.mem_cons.mp hl' with rfl | hl'
        · exact measured
        · exact all l' hl'

theorem scan_ranges (source : String) :
    InOrder ((scan source).flatMap ranges) ∧ ∀ l ∈ scan source, l.Measured := by
  rw [scan_eq_scanFrom]
  obtain ⟨ordered, -, measured⟩ := scanFrom_ranges _ _ _
  exact ⟨ordered, measured⟩

end Lexeme

end Go

end SwitchLint
