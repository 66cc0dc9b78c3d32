import SwitchLint.Proofs.Tiling

/-!
Scanning piece by piece. A scan passes over one blank or comment or takes one lexeme, and goes on behind
it; what it has to remember is only the first line break since the last lexeme.
-/

namespace SwitchLint

namespace Go.Lexeme

/-- The line break to remember behind a character: the first run of line feeds. -/
def noted (p : Position) (b : Option Break) (c : Char) (rest : List Char) : Option Break :=
  if c = '\n' then b.or (some ⟨p, p.offset + 1 + (rest.takeWhile (· == '\n')).length⟩) else b

/-- Scanning on from a point, with the line break that is remembered there, gives the lexemes. -/
inductive Scans : Position → Option Break → List Char → List Lexeme → Prop
  | done {p b} : Scans p b [] [⟨.eof, "", p, p.offset, b⟩]
  | blank {p b c cs ls} : isSpace c = true → Scans (p.advance c) (noted p b c cs) cs ls →
      Scans p b (c :: cs) ls
  | comment {p b cs n ls} : comment cs = some n → Scans (p.after (cs.take n)) b (cs.drop n) ls →
      Scans p b cs ls
  | lexeme {p b cs stop ls} : Settled cs → cs ≠ [] → stop = p.after (cs.take (measure cs).2) →
      Scans stop none (cs.drop (measure cs).2) ls →
      Scans p b cs (⟨(measure cs).1, String.ofList (cs.take (measure cs).2), p, stop.offset, b⟩ :: ls)

theorem scans_of_skipGap {fuel : Nat} {p : Position} {b : Option Break} {cs : List Char}
    {ls : List Lexeme}
    (scans : Scans (skipGap fuel p b cs).stop (skipGap fuel p b cs).newline (skipGap fuel p b cs).rest ls) :
    Scans p b cs ls := by
  induction fuel generalizing p b cs with
  | zero => exact scans
  | succ fuel ih =>
    cases cs with
    | nil => exact scans
    | cons c cs =>
      unfold skipGap at scans
      dsimp only at scans
      split at scans
      · rename_i feed
        subst feed
        exact .blank rfl (ih scans)
      · rename_i other
        split at scans
        · rename_i space
          refine .blank space ?_
          rw [noted, if_neg other]
          exact ih scans
        · split at scans
          · rename_i n found
            exact .comment found (ih scans)
          · exact scans

theorem scans_scanFrom {fuel : Nat} {p : Position} {cs : List Char} (enough : cs.length < fuel) :
    Scans p none cs (scanFrom fuel p cs) := by
  induction fuel generalizing p cs with
  | zero => exact absurd enough (Nat.not_lt_zero _)
  | succ fuel ih =>
    obtain ⟨passes, settled, -⟩ := skipGap_spec cs.length p none cs (Nat.le_refl _)
    refine @scans_of_skipGap cs.length _ _ _ _ ?_
    unfold scanFrom
    dsimp only
    generalize skipGap cs.length p none cs = gap at *
    obtain ⟨q, b, rest⟩ := gap
    dsimp only at passes settled ⊢
    cases rest with
    | nil => exact .done
    | cons c rest =>
      have solid := measure_solid c rest
      have length := stride_of_settled settled
      split
      · rename_i measured
        rw [measured] at solid
        exact absurd rfl solid.1
      · rename_i shape n _ measured
        have lexeme := Scans.lexeme (b := b) settled (List.cons_ne_nil c rest) rfl
          (@ih (q.after _) ((c :: rest).drop (measure (c :: rest)).2) ?_)
        · rw [measured] at lexeme
          exact lexeme
        · obtain ⟨read, whole, -⟩ := passes.behind
          have total := congrArg List.length whole
          have positive := solid.2
          simp only [List.length_append, List.length_cons, List.length_drop] at total ⊢
          omega

theorem comment_head {cs : List Char} {n : Nat} (found : comment cs = some n) :
    ∃ rest, cs = '/' :: rest := by
  unfold comment at found
  split at found
  · exact ⟨_, rfl⟩
  · exact ⟨_, rfl⟩
  · cases found

section

variable {p : Position} {b : Option Break} {c : Char} {cs : List Char} {ls ls' : List Lexeme} {n : Nat}

theorem no_comment_of_blank (space : isSpace c = true) : comment (c :: cs) = none := by
  cases found : comment (c :: cs) with
  | none => rfl
  | some n =>
    obtain ⟨rest, same⟩ := comment_head found
    obtain ⟨rfl, -⟩ := List.cons.inj same
    cases space

theorem not_settled_of_blank (space : isSpace c = true) : ¬ Settled (c :: cs) := by
  intro settled
  rw [settled.1 c rfl] at space
  cases space

theorem scans_nil_iff : Scans p b [] ls ↔ ls = [⟨.eof, "", p, p.offset, b⟩] := by
  refine ⟨fun scans => ?_, fun same => same ▸ .done⟩
  cases scans with
  | done => rfl
  | comment found => cases found
  | lexeme _ filled => exact absurd rfl filled

theorem scans_blank_iff (space : isSpace c = true) :
    Scans p b (c :: cs) ls ↔ Scans (p.advance c) (noted p b c cs) cs ls := by
  refine ⟨fun scans => ?_, .blank space⟩
  cases scans with
  | blank _ scans => exact scans
  | comment found =>
    rw [no_comment_of_blank space] at found
    cases found
  | lexeme settled => exact absurd settled (not_settled_of_blank space)

theorem scans_comment_iff (found : comment cs = some n) :
    Scans p b cs ls ↔ Scans (p.after (cs.take n)) b (cs.drop n) ls := by
  refine ⟨fun scans => ?_, .comment found⟩
  cases scans with
  | done => cases found
  | blank space =>
    rw [no_comment_of_blank space] at found
    cases found
  | comment found' scans =>
    obtain rfl := Option.some.inj (found.symm.trans found')
    exact scans
  | lexeme settled =>
    rw [settled.2] at found
    cases found

theorem scans_lexeme_iff (settled : Settled cs) (filled : cs ≠ []) :
    Scans p b cs ls ↔ ∃ later,
      ls = ⟨(measure cs).1, String.ofList (cs.take (measure cs).2), p,
        (p.after (cs.take (measure cs).2)).offset, b⟩ :: later ∧
      Scans (p.after (cs.take (measure cs).2)) none (cs.drop (measure cs).2) later := by
  constructor
  · intro scans
    cases scans with
    | done => exact absurd rfl filled
    | blank space => exact absurd settled (not_settled_of_blank space)
    | comment found =>
      rw [settled.2] at found
      cases found
    | lexeme _ _ stop scans => exact ⟨_, by rw [stop], stop ▸ scans⟩
  · rintro ⟨later, rfl, scans⟩
    exact .lexeme settled filled rfl scans

theorem Scans.unique (one : Scans p b cs ls) (other : Scans p b cs ls') : ls = ls' := by
  induction one generalizing ls' with
  | done => exact (scans_nil_iff.mp other).symm
  | blank space _ ih => exact ih ((scans_blank_iff space).mp other)
  | comment found _ ih => exact ih ((scans_comment_iff found).mp other)
  | lexeme settled filled stop _ ih =>
    obtain ⟨later, rfl, scans⟩ := (scans_lexeme_iff settled filled).mp other
    subst stop
    rw [ih scans]

end

theorem scans_iff (source : String) (ls : List Lexeme) :
    Scans (beginning source).1 none (beginning source).2 ls ↔ scan source = ls := by
  have scans := scans_scanFrom (p := (beginning source).1) (Nat.lt_succ_self (beginning source).2.length)
  rw [scan_eq_scanFrom]
  exact ⟨scans.unique, fun same => same ▸ scans⟩

/-- The piece that begins before a point that reading passes ends before it. -/
theorem Passes.piece {p q : Position} {x y : List Char} (passes : Passes (p, x ++ y) (q, y))
    (filled : x ≠ []) (more : y ≠ []) : stride (x ++ y) ≤ x.length ∧
      Passes (p.after ((x ++ y).take (stride (x ++ y))), x.drop (stride (x ++ y)) ++ y) (q, y) := by
  generalize whole : x ++ y = cs at passes ⊢
  cases passes with
  | here => exact absurd (by simpa using whole) filled
  | on _ passes =>
    obtain ⟨read, behind, -⟩ := passes.behind
    dsimp only at behind
    have total := congrArg List.length whole
    have total' := congrArg List.length behind
    have positive : 0 < y.length := List.length_pos_iff.mpr more
    simp only [List.length_append, List.length_drop] at total total'
    have inside : stride cs ≤ x.length := by omega
    refine ⟨inside, ?_⟩
    rw [← whole, List.drop_append_of_le_length (by rw [whole]; exact inside), whole] at passes
    exact passes

end Go.Lexeme

end SwitchLint
