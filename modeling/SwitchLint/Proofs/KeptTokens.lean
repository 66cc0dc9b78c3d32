import SwitchLint.Proofs.CaseExpressions
import SwitchLint.Proofs.LineFeeds
import SwitchLint.Proofs.Typesetting

/-!
The tokens of canonical texts. The leaves of an expression that is read are tokens, and its canonical
text puts them together, with blanks between some of them. Its tokens are the leaves unless a leaf runs
on into what is printed behind it.
-/

namespace SwitchLint

namespace Go

open Lexeme

/-! ### The leaves of a source -/

/-- All leaves of the tree but line breaks are tokens. -/
def Tree.Tokenized (t : Tree) : Prop := ∀ l ∈ t.leaves, l.1 ≠ .lineBreak → IsToken l.2.text.toList

theorem isToken_of_isMark {l : Lexeme} (mark : l.isMark = true) : IsToken l.text.toList := by
  have all : ∀ m ∈ marks, IsToken m.toList := by decide +kernel
  simp only [isMark, Bool.and_eq_true, List.contains_iff_mem] at mark
  exact all _ mark.2

theorem isToken_of_scan {source : String} (known : ∀ l ∈ scan source, l.shape ≠ .unknown) :
    ∀ l ∈ scan source, l.shape ≠ .eof → IsToken l.text.toList := by
  intro l hl solid
  obtain ⟨rest, -, settled, shape, text⟩ := (scan_spec source).1 l hl
  have filled : rest ≠ [] := by
    rintro rfl
    exact solid shape
  rw [text]
  exact isToken_of_knows (knows_of_measure (shape ▸ known l hl) filled) settled

theorem parseTree_tokenized {source : String} {t : Tree} (read : parseTree source = .ok t) :
    t.Tokenized := by
  obtain ⟨steps, built⟩ := parseTree_eq_ok read
  have tokens := isToken_of_scan (Tree.ofSteps_known built)
  have solid := Tree.ofSteps_holds (P := fun l => l.shape ≠ .eof → IsToken l.text.toList)
    (fun n l parts _ => ⟨fun _ => isToken_of_isMark parts.first, fun _ => isToken_of_isMark parts.second⟩)
    (fun l token => token) tokens built
  intro l hl other
  exact solid l hl (Leaf.shape_of_fits other (Tree.ofSteps_fitting built l hl other)).2

theorem Tree.Tokenized.mono {t s : Tree} (tokenized : t.Tokenized) (sub : s.leaves.Sublist t.leaves) :
    s.Tokenized := fun l hl => tokenized l (sub.subset hl)

theorem Tree.toExpr_tokenized {t : Tree} (tokenized : t.Tokenized)
    (solid : ∀ l, t ≠ leaf .lineBreak l) : ∀ text ∈ t.toExpr.leafTexts, IsToken text.toList := by
  induction t using node_induction with
  | leaf as l =>
    have solid : as ≠ .lineBreak := fun same => solid l (by rw [same])
    have token : IsToken l.text.toList := tokenized (as, l) List.mem_cons_self solid
    cases as <;> exact List.forall_mem_singleton.mpr token
  | node kind children ih =>
    have parts : ∀ e ∈ partsOf children, ∀ text ∈ e.leafTexts, IsToken text.toList := by
      intro e he
      obtain ⟨c, hc, solid, rfl⟩ := mem_partsOf he
      exact ih c hc (tokenized.mono (leaves_of_child hc)) solid
    rcases toExpr_node kind children with ⟨base, middle, field, three, read⟩ | read
    · rw [three] at parts
      rw [read, Expr.leafTexts]
      exact List.forall_mem_append.mpr ⟨parts base (by simp),
        List.forall_mem_cons.mpr ⟨by decide +kernel, parts field (by simp)⟩⟩
    · rw [read, Expr.leafTexts, Expr.leafTextsOfAll_eq]
      intro text member
      obtain ⟨e, he, member⟩ := List.mem_flatMap.mp member
      exact parts e he text member

theorem Tree.partsOf_ne_nil {kind : Kind} {children : List (Option Field × Tree)}
    (admits : kind.admits children = true) (inner : kind ≠ .sourceFile) : partsOf children ≠ [] := by
  obtain ⟨f, t, rest, rfl, solid⟩ := head_of_admits admits inner
  rw [partsOf.eq_def]
  split
  · rename_i same
    cases same
  · rename_i l _ same
    cases same
    exact absurd rfl (solid l)
  · exact List.cons_ne_nil _ _

/-- In what is printed for a tree blanks stand between the words that meet. -/
theorem Tree.toExpr_neat {t : Tree} (tokenized : t.Tokenized) (legible : t.Legible) :
    Expr.Neat t.toExpr.typeset := by
  induction t using node_induction with
  | leaf as l =>
    have solid : as ≠ .lineBreak := fun same => legible.solid l (by rw [same])
    have token : IsToken l.text.toList := tokenized (as, l) List.mem_cons_self solid
    cases as <;> exact Expr.Neat.one token.filled
  | node kind children ih =>
    obtain ⟨admits, all⟩ := legible.admitted.of_node
    have parts : ∀ e ∈ partsOf children, Expr.Neat e.typeset := by
      intro e he
      obtain ⟨c, hc, solid, rfl⟩ := mem_partsOf he
      exact ih c hc (tokenized.mono (leaves_of_child hc))
        ⟨all c hc, isKind_of_admits (children_of_admits admits c hc), solid⟩
    rcases toExpr_node kind children with ⟨base, middle, field, three, read⟩ | read
    · rw [three] at parts
      have base := parts base (by simp)
      have field := parts field (by simp)
      have dot : Expr.Neat [some ['.']] := .one (List.cons_ne_nil _ _)
      have behind := dot.append field fun meet => by cases meet.1
      rw [read, Expr.typeset]
      exact base.append behind fun meet => by cases meet.2
    · have other : kind ≠ .sourceFile := by simpa [isKind, kind?] using legible.inner
      rw [read, Expr.typeset, Expr.typesetOfAll_eq]
      refine Expr.neat_assembleSet kind.name ?_ ?_
      · rw [Ne, List.map_eq_nil_iff]
        exact partsOf_ne_nil admits other
      · intro p hp
        obtain ⟨e, he, rfl⟩ := List.mem_map.mp hp
        exact parts e he

/-- The leaves of an expression that is read are tokens, and they are the tokens of its canonical text
unless one of them runs on into what is printed behind it. Only signs, numbers and words before or with a
character that is no letter, digit or underscore can. -/
theorem canonical_text_keeps_tokens {source : String} {file : SourceFile}
    (read : parse source = .ok file) : ∀ e ∈ file.caseExpressions,
    (∀ leaf ∈ e.leafTexts, tokens leaf = [leaf]) ∧
      (tokens e.text = e.leafTexts ↔ ∀ leaf rest, ¬ e.RunsOn leaf rest) ∧
      ∀ leaf rest, e.RunsOn leaf rest → Escapes leaf rest := by
  intro e he
  obtain ⟨body, declared, he⟩ := List.mem_flatMap.mp he
  obtain ⟨⟨clauses, span⟩, switch, member⟩ := List.mem_flatMap.mp he
  obtain ⟨t, concrete, c, hc, u, sub, legible, rfl⟩ := caseExpr_of_parse read declared switch member
  have inside := sub.trans (Tree.leaves_of_children hc)
  have tokenized := (parseTree_tokenized concrete).mono inside
  have leaves := Tree.toExpr_tokenized tokenized legible.solid
  exact ⟨fun leaf hleaf => tokens_of_isToken (leaves leaf hleaf), Expr.tokens_text_iff leaves,
    fun leaf rest => Expr.escapes_of_runsOn leaves (Tree.toExpr_neat tokenized legible)⟩

/-- A source with the given values in a case. -/
def withCase (values : String) : String :=
  "package p\nfunc f() \x7b\n\tswitch v \x7b\n\tcase " ++ values ++ ":\n\t\x7d\n\x7d\n"

/-- The tokens of the canonical texts of the cases, beside the leaves. -/
def caseTokens (file : SourceFile) : List (List String × List String) :=
  file.caseExpressions.map fun e => (tokens e.text, e.leafTexts)

theorem canonical_text_keeps_tokens_nested :
    ∃ file, parse (withCase "f( -x,[ ]chan int\x7b \x7d ) .a") = .ok file ∧
      file.caseExpressions.map Expr.leafTexts =
        [["f", "(", "-", "x", ",", "[", "]", "chan", "int", "\x7b", "\x7d", ")", ".", "a"]] ∧
      ∀ e ∈ file.caseExpressions, ∀ leaf rest, ¬ e.RunsOn leaf rest := by
  obtain ⟨file, read, found⟩ : ∃ file, parse (withCase "f( -x,[ ]chan int\x7b \x7d ) .a") = .ok file ∧
      caseTokens file =
        [(["f", "(", "-", "x", ",", "[", "]", "chan", "int", "\x7b", "\x7d", ")", ".", "a"],
          ["f", "(", "-", "x", ",", "[", "]", "chan", "int", "\x7b", "\x7d", ")", ".", "a"])] :=
    parse_of_run (by decide +kernel)
  refine ⟨file, read, ?_, fun e he => ?_⟩
  · have leaves := congrArg (List.map Prod.snd) found
    rw [caseTokens, List.map_map] at leaves
    exact leaves
  · have member : (tokens e.text, e.leafTexts) ∈ caseTokens file := List.mem_map.mpr ⟨e, he, rfl⟩
    rw [found, List.mem_singleton, Prod.mk.injEq] at member
    exact (canonical_text_keeps_tokens read e he).2.1.mp (member.1.trans member.2.symm)

/-- A sign runs on into another one, and a number into the dot behind it. -/
theorem signs_run_together :
    ∃ file, parse (withCase "f(- -x).a, 1 .b") = .ok file ∧
      caseTokens file =
        [(["f", "(", "--", "x", ")", ".", "a"], ["f", "(", "-", "-", "x", ")", ".", "a"]),
          (["1.", "b"], ["1", ".", "b"])] :=
  parse_of_run (by decide +kernel)

end Go

end SwitchLint
