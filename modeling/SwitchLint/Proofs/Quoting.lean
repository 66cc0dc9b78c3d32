import Mathlib.Data.List.Flatten
import SwitchLint.Proofs.Arrangement

/-!
Reading quotes the source. Every declaration, statement, block, clause and expression that is read has
the range of a text of the source, with the ranges of its parts arranged inside; the names and the tokens
are the texts that stand at their ranges, and a switch begins with its keyword.
-/

namespace SwitchLint

namespace Span

/-- The range is that of a text of the source, and the ranges of the parts are arranged in it. -/
structure Frames (source : String) (s : Span) (parts : List Span) : Prop where
  covers : ∃ text, s.Covers source text
  arranges : s.Arranges parts

/-- The range is that of a text that begins with the keyword, which ends where no character of an
identifier follows. -/
def BeginsWith (source : String) (s : Span) (keyword : String) : Prop :=
  ∃ text : String, s.Covers source (keyword ++ text) ∧
    ∀ c ∈ text.toList.head?, Text.isIdentifierPart c = false

theorem Frames.sublist {source : String} {s : Span} {parts some : List Span}
    (frames : s.Frames source parts) (sub : some.Sublist parts) : s.Frames source some :=
  ⟨frames.covers, frames.arranges.sublist sub⟩

end Span

/-! ### Syntax that quotes a source -/

/-- The ranges of the expression and of all its parts are those of texts of the source. -/
inductive Expr.Quotes (source : String) : Expr → Prop
  | ident {name span} : span.Covers source name → Quotes source (.ident name span)
  | token {kind text span} : span.Covers source text → Quotes source (.token kind text span)
  | selector {base field span} : span.Frames source [base.span, field.span] →
      Quotes source base → Quotes source field → Quotes source (.selector base field span)
  | node {kind children span} : span.Frames source (children.map Expr.span) →
      (∀ e ∈ children, Quotes source e) → Quotes source (.node kind children span)

mutual

/-- The ranges of the statement and of all that stands in it are those of texts of the source. -/
inductive Stmt.Quotes (source : String) : Stmt → Prop
  | switch {clauses span} : span.Frames source (clauses.map Clause.span) →
      span.BeginsWith source "switch" → (∀ c ∈ clauses, Clause.Quotes source c) →
      Stmt.Quotes source (.switch clauses span)
  | compound {kind blocks span} : span.Frames source (blocks.map Block.span) →
      (∀ b ∈ blocks, Block.Quotes source b) → Stmt.Quotes source (.compound kind blocks span)
  | simple {span} : span.Frames source [] → Stmt.Quotes source (.simple span)

/-- `Stmt.Quotes` of a clause: its expressions stand before its statements. -/
inductive Clause.Quotes (source : String) : Clause → Prop
  | mk {exprs body span} :
      span.Frames source ((exprs.getD []).map Expr.span ++ body.map Stmt.span) →
      (∀ e ∈ exprs.getD [], e.Quotes source) → (∀ s ∈ body, Stmt.Quotes source s) →
      Clause.Quotes source (.mk exprs body span)

/-- `Stmt.Quotes` of a block. -/
inductive Block.Quotes (source : String) : Block → Prop
  | mk {stmts span} : span.Frames source (stmts.map Stmt.span) →
      (∀ s ∈ stmts, Stmt.Quotes source s) → Block.Quotes source (.mk stmts span)

end

def Decl.span : Decl → Span
  | function f => f.span
  | other s => s

/-- The ranges of the declaration and of all that stands in it are those of texts of the source. -/
inductive Decl.Quotes (source : String) : Decl → Prop
  | function {f : Function} : f.span.Frames source (f.body.toList.map Block.span) →
      (∀ b ∈ f.body, b.Quotes source) → Quotes source (.function f)
  | other {span} : span.Frames source [] → Quotes source (.other span)

/-- The file is read from the source: its declarations quote it, one after the other. -/
structure SourceFile.Quotes (source : String) (file : SourceFile) : Prop where
  arranges : Span.Arranges ⟨0, source.utf8ByteSize, 1, 1⟩ (file.decls.map Decl.span)
  decls : ∀ d ∈ file.decls, d.Quotes source

namespace Go

namespace Tree

/-! ### Lists that are read from children -/

/-- A tree that is in place in the source and has leaves. -/
structure Quoted (source : String) (t : Tree) : Prop extends StandsIn source.toList t where
  filled : t.leaves ≠ []

theorem StandsIn.quoted {source : String} {t : Tree} {c : Option Field × Tree}
    (stands : t.StandsIn source.toList) (child : c ∈ t.children) : c.2.Quoted source :=
  ⟨stands.child child, filled_child stands.admitted child⟩

/-- The pieces have the ranges of trees that follow one another among the leaves, and all are good. -/
structure Renders {α : Type} (span : α → Span) (good : α → Prop) (among : List (Leaf × Lexeme))
    (xs : List α) : Prop where
  spread : ∃ ts, xs.map span = ts.map Tree.span ∧ Spread ts among
  good : ∀ x ∈ xs, good x

section Renders

variable {α : Type} {span : α → Span} {good : α → Prop}

theorem Renders.nil (among : List (Leaf × Lexeme)) : Renders span good among [] :=
  ⟨⟨[], rfl, .nil among⟩, by simp⟩

theorem Renders.one {t : Tree} {x : α} (filled : t.leaves ≠ []) (range : span x = t.span) (fine : good x) :
    Renders span good t.leaves [x] :=
  ⟨⟨[t], by simp [range], .one filled⟩, by simpa using fine⟩

theorem Renders.mono {among more : List (Leaf × Lexeme)} {xs : List α}
    (renders : Renders span good among xs) (sub : among.Sublist more) : Renders span good more xs := by
  obtain ⟨ts, ranges, spread⟩ := renders.spread
  exact ⟨⟨ts, ranges, spread.mono sub⟩, renders.good⟩

theorem Renders.append {among more : List (Leaf × Lexeme)} {xs ys : List α}
    (first : Renders span good among xs) (second : Renders span good more ys) :
    Renders span good (among ++ more) (xs ++ ys) := by
  obtain ⟨ts, ranges, spread⟩ := first.spread
  obtain ⟨us, ranges', spread'⟩ := second.spread
  refine ⟨⟨ts ++ us, ?_, spread.append spread'⟩, ?_⟩
  · rw [List.map_append, List.map_append, ranges, ranges']
  · exact List.forall_mem_append.mpr ⟨first.good, second.good⟩

theorem Quoted.frames {source : String} {t : Tree} (quoted : t.Quoted source) {ts : List Tree}
    (spread : Spread ts t.leaves) : t.span.Frames source (ts.map Tree.span) :=
  ⟨quoted.covers quoted.filled, spread.arranges quoted.ordered⟩

theorem Renders.frames {source : String} {t : Tree} {xs : List α} (renders : Renders span good t.leaves xs)
    (quoted : t.Quoted source) : t.span.Frames source (xs.map span) := by
  obtain ⟨ts, ranges, spread⟩ := renders.spread
  rw [ranges]
  exact quoted.frames spread

theorem renders_children (parts : List (Option Field × Tree) → List α) (none : parts [] = [])
    {children : List (Option Field × Tree)}
    (each : ∀ c ∈ children, ∀ cs, ∃ part, Renders span good c.2.leaves part ∧
      parts (c :: cs) = part ++ parts cs) : Renders span good (childLeaves children) (parts children) := by
  induction children with
  | nil =>
    rw [none]
    exact .nil _
  | cons c children ih =>
    obtain ⟨here, later⟩ := List.forall_mem_cons.mp each
    obtain ⟨part, renders, whole⟩ := here children
    rw [childLeaves, whole]
    exact renders.append (ih later)

end Renders

/-! ### Expressions -/

theorem toExpr_node (kind : Kind) (children : List (Option Field × Tree)) :
    (∃ base middle field, partsOf children = [base, middle, field] ∧
      (node kind children).toExpr = .selector base field (node kind children).span) ∨
    (node kind children).toExpr = .node kind.name (partsOf children) (node kind children).span := by
  rw [toExpr.eq_def]
  dsimp only
  split
  · rename_i base middle field parts
    exact .inl ⟨base, middle, field, parts, rfl⟩
  · exact .inr rfl

theorem toExpr_span (t : Tree) : t.toExpr.span = t.span := by
  cases t with
  | leaf as l => cases as <;> rfl
  | node kind children =>
    rcases toExpr_node kind children with ⟨_, _, _, -, read⟩ | read <;> rw [read] <;> rfl

theorem partsOf_renders {good : Expr → Prop} {children : List (Option Field × Tree)}
    (filled : ∀ c ∈ children, c.2.leaves ≠ [])
    (known : ∀ c ∈ children, (∀ l, c.2 ≠ leaf .lineBreak l) → good c.2.toExpr) :
    Renders Expr.span good (childLeaves children) (partsOf children) := by
  refine renders_children partsOf rfl fun c hc cs => ?_
  rw [partsOf.eq_def]
  split
  · contradiction
  · rename_i same
    cases same
    exact ⟨[], .nil _, rfl⟩
  · rename_i t _ solid same
    cases same
    exact ⟨[t.toExpr], .one (filled _ hc) (toExpr_span t) (known _ hc solid), rfl⟩

theorem toExpr_quotes {source : String} {t : Tree} (quoted : t.Quoted source)
    (solid : ∀ l, t ≠ leaf .lineBreak l) : t.toExpr.Quotes source := by
  induction t using node_induction with
  | leaf as l =>
    have solid : as ≠ .lineBreak := fun same => solid l (by rw [same])
    have covers : (leafSpan as l).Covers source l.text := by
      obtain ⟨before, rest, whole, range, -⟩ :=
        leafSpan_behind (quoted.lexemes (as, l) List.mem_cons_self) solid
      rw [range]
      simpa using Span.behind_covers whole
    cases as
    case identifier => exact .ident covers
    case fieldIdentifier => exact .ident covers
    case packageIdentifier => exact .ident covers
    case typeIdentifier => exact .ident covers
    all_goals exact .token covers
  | node kind children ih =>
    have child (c) (hc : c ∈ children) : c.2.Quoted source := quoted.quoted hc
    have renders : Renders Expr.span (Expr.Quotes source) (childLeaves children) (partsOf children) :=
      partsOf_renders (fun c hc => (child c hc).filled) fun c hc => ih c hc (child c hc)
    have frames := renders.frames quoted
    have good := renders.good
    rcases toExpr_node kind children with ⟨base, middle, field, parts, read⟩ | read
    · rw [parts] at frames good
      rw [read]
      have ends : [base.span, field.span].Sublist ([base, middle, field].map Expr.span) := by
        simp
      exact .selector (frames.sublist ends) (good base (by simp)) (good field (by simp))
    · rw [read]
      exact .node frames good

theorem caseValues_renders {source : String} {t : Tree} (stands : t.StandsIn source.toList) :
    Renders Expr.span (Expr.Quotes source) t.leaves t.caseValues := by
  cases t with
  | leaf as l => exact .nil _
  | node kind children =>
    refine renders_children (fun cs => (cs.filter (·.2.isNamed)).map fun c => c.2.toExpr) rfl
      fun c hc cs => ?_
    by_cases named : c.2.isNamed = true
    · have quoted : c.2.Quoted source := stands.quoted hc
      refine ⟨[c.2.toExpr], .one quoted.filled (toExpr_span _) (toExpr_quotes quoted ?_), ?_⟩
      · intro l same
        rw [same] at named
        cases named
      · simp [named]
    · exact ⟨[], .nil _, by simp [named]⟩

/-! ### Statements -/

theorem toStmt_span (t : Tree) : t.toStmt.span = t.span := by
  cases t with
  | leaf as l => rfl
  | node kind children => cases kind <;> rfl

/-- What is read from the tree quotes the source: the statement that it is, the statements in it, and the
clause that it is. -/
structure Sound (source : String) (t : Tree) : Prop where
  quoted : t.Quoted source
  stmt : t.toStmt.Quotes source
  list : ∀ kind children, t = node kind children →
    Renders Stmt.span (Stmt.Quotes source) (childLeaves children) (stmtsOf children)
  clause : ∀ children, t = node .expressionCase children →
    Clause.Quotes source (.mk (some (valuesOf children)) (stmtsOf children) t.span)

section Sound

variable {source : String} {children : List (Option Field × Tree)}

theorem Sound.block {kind : Kind} (sound : Sound source (node kind children)) :
    Block.Quotes source (.mk (stmtsOf children) (node kind children).span) := by
  have stmts := sound.list kind children rfl
  exact .mk (Renders.frames (t := node kind children) stmts sound.quoted) stmts.good

theorem Sound.default {kind : Kind} (sound : Sound source (node kind children)) :
    Clause.Quotes source (.mk none (stmtsOf children) (node kind children).span) := by
  have stmts := sound.list kind children rfl
  exact .mk (Renders.frames (t := node kind children) stmts sound.quoted) (by simp) stmts.good

theorem Sound.one {t : Tree} (sound : Sound source t) :
    Renders Stmt.span (Stmt.Quotes source) t.leaves [t.toStmt] :=
  .one sound.quoted.filled (toStmt_span t) sound.stmt

theorem stmtsOf_renders (sound : ∀ c ∈ children, Sound source c.2) :
    Renders Stmt.span (Stmt.Quotes source) (childLeaves children) (stmtsOf children) := by
  refine renders_children stmtsOf rfl fun c hc cs => ?_
  have known := sound c hc
  rw [stmtsOf.eq_def]
  split
  · contradiction
  · rename_i inner _ same
    cases same
    exact ⟨stmtsOf inner, known.list _ inner rfl, rfl⟩
  · rename_i same
    cases same
    exact ⟨_, known.one, rfl⟩
  · rename_i same
    cases same
    exact ⟨[], .nil _, rfl⟩

theorem clausesOf_renders (sound : ∀ c ∈ children, Sound source c.2) :
    Renders Clause.span (Clause.Quotes source) (childLeaves children) (clausesOf children) := by
  refine renders_children clausesOf rfl fun c hc cs => ?_
  have known := sound c hc
  rw [clausesOf.eq_def]
  split
  · contradiction
  · rename_i inner _ same
    cases same
    exact ⟨_, .one known.quoted.filled rfl (known.clause inner rfl), rfl⟩
  · rename_i same
    cases same
    exact ⟨_, .one known.quoted.filled rfl known.default, rfl⟩
  · rename_i same
    cases same
    exact ⟨[], .nil _, rfl⟩

theorem branchesOf_renders (sound : ∀ c ∈ children, Sound source c.2) :
    Renders Block.span (Block.Quotes source) (childLeaves children) (branchesOf children) := by
  refine renders_children branchesOf rfl fun c hc cs => ?_
  have known := sound c hc
  have filled := known.quoted.filled
  rw [branchesOf.eq_def]
  split
  · contradiction
  · rename_i same
    cases same
    exact ⟨_, .one filled rfl known.block, rfl⟩
  · rename_i same
    cases same
    exact ⟨_, .one filled rfl known.block, rfl⟩
  · rename_i same
    cases same
    -- The branch of an `else if` has the range of the conditional in it.
    exact ⟨_, .one filled rfl (.mk (known.one.frames known.quoted) known.one.good), rfl⟩
  · rename_i same
    cases same
    exact ⟨[], .nil _, rfl⟩

theorem bodiesOf_renders (sound : ∀ c ∈ children, Sound source c.2) :
    Renders Block.span (Block.Quotes source) (childLeaves children) (bodiesOf children) := by
  refine renders_children bodiesOf rfl fun c hc cs => ?_
  have known := sound c hc
  rw [bodiesOf.eq_def]
  split
  · contradiction
  · rename_i same
    cases same
    exact ⟨_, .one known.quoted.filled rfl known.block, rfl⟩
  · rename_i same
    cases same
    exact ⟨[], .nil _, rfl⟩

theorem clauseBlocksOf_renders (sound : ∀ c ∈ children, Sound source c.2) :
    Renders Block.span (Block.Quotes source) (childLeaves children) (clauseBlocksOf children) := by
  refine renders_children clauseBlocksOf rfl fun c hc cs => ?_
  have known := sound c hc
  have filled := known.quoted.filled
  rw [clauseBlocksOf.eq_def]
  split
  · contradiction
  · rename_i same
    cases same
    exact ⟨_, .one filled rfl known.block, rfl⟩
  · rename_i same
    cases same
    exact ⟨_, .one filled rfl known.block, rfl⟩
  · rename_i same
    cases same
    exact ⟨_, .one filled rfl known.block, rfl⟩
  · rename_i same
    cases same
    exact ⟨[], .nil _, rfl⟩

theorem labeledOf_renders (sound : ∀ c ∈ children, Sound source c.2) :
    Renders Stmt.span (Stmt.Quotes source) (childLeaves children) (labeledOf children) := by
  refine renders_children labeledOf rfl fun c hc cs => ?_
  have known := sound c hc
  rw [labeledOf.eq_def]
  split
  · contradiction
  · rename_i same
    cases same
    exact ⟨_, known.one, rfl⟩
  · rename_i same
    cases same
    exact ⟨[], .nil _, rfl⟩

theorem case_children (admits : Kind.expressionCase.admits children = true) :
    ∃ l t rest, children = (none, leaf .mark l) :: (some .value, t) :: rest := by
  have opens : Kind.expressionCase.opensWith children = true := by
    simp only [Kind.admits, Bool.and_eq_true] at admits
    exact admits.1.1
  unfold Kind.opensWith at opens
  split at opens
  · contradiction
  · contradiction
  · contradiction
  · rename_i l rest _
    have value := (Bool.and_eq_true_iff.mp opens).2
    cases rest with
    | nil => cases value
    | cons c rest =>
      obtain ⟨f, t⟩ := c
      obtain rfl : f = some .value := by simpa using value
      exact ⟨l, t, rest, rfl⟩
  · cases opens

/-- The values of a clause stand right behind its keyword, and so before its statements. -/
theorem case_quotes (quoted : (node .expressionCase children).Quoted source)
    (sound : ∀ c ∈ children, Sound source c.2) :
    Clause.Quotes source (.mk (some (valuesOf children)) (stmtsOf children)
      (node .expressionCase children).span) := by
  obtain ⟨l, t, rest, rfl⟩ : ∃ l t rest, children = (none, leaf .mark l) :: (some .value, t) :: rest :=
    case_children quoted.admitted.of_node.1
  have value : t.Quoted source := quoted.quoted (c := (some .value, t)) (by simp [Tree.children])
  have values : Renders Expr.span (Expr.Quotes source) t.leaves
      (valuesOf ((none, leaf .mark l) :: (some .value, t) :: rest)) := caseValues_renders value.toStandsIn
  have stmts : Renders Stmt.span (Stmt.Quotes source) (childLeaves rest)
      (stmtsOf ((none, leaf .mark l) :: (some .value, t) :: rest)) :=
    stmtsOf_renders fun c hc => sound c (by simp [hc])
  refine .mk ?_ values.good stmts.good
  obtain ⟨ts, ranges, spread⟩ := values.spread
  obtain ⟨us, ranges', spread'⟩ := stmts.spread
  rw [Option.getD_some, ranges, ranges', ← List.map_append]
  exact quoted.frames ((spread.append spread').mono (List.sublist_cons_self _ _))

theorem switch_quotes (quoted : (node .expressionSwitchStatement children).Quoted source)
    (sound : ∀ c ∈ children, Sound source c.2) :
    (node .expressionSwitchStatement children).toStmt.Quotes source := by
  have clauses := clausesOf_renders sound
  have keyword := quoted.covers_keyword rfl ⟨'s', by decide, by decide⟩
  exact .switch (Renders.frames (t := node _ children) clauses quoted) keyword clauses.good

theorem compound_quotes {kind : Kind} {as : CompoundKind} {blocks : List Block}
    (quoted : (node kind children).Quoted source)
    (compound : toStmt (node kind children) = .compound as blocks (node kind children).span)
    (renders : Renders Block.span (Block.Quotes source) (childLeaves children) blocks) :
    (node kind children).toStmt.Quotes source := by
  rw [compound]
  exact .compound (Renders.frames (t := node kind children) renders quoted) renders.good

theorem whole_quotes {kind : Kind} {as : CompoundKind} {stmts : List Stmt}
    (quoted : (node kind children).Quoted source)
    (compound : toStmt (node kind children) =
      .compound as [.mk stmts (node kind children).span] (node kind children).span)
    (renders : Renders Stmt.span (Stmt.Quotes source) (childLeaves children) stmts) :
    (node kind children).toStmt.Quotes source := by
  have frames := Renders.frames (t := node kind children) renders quoted
  refine compound_quotes quoted compound ?_
  exact .one (t := node kind children) quoted.filled rfl (.mk frames renders.good)

theorem toStmt_quotes {kind : Kind} (quoted : (node kind children).Quoted source)
    (sound : ∀ c ∈ children, Sound source c.2) : (node kind children).toStmt.Quotes source := by
  cases statement : kind.isStatement with
  | false =>
    have simple : toStmt (node kind children) = .simple (node kind children).span := by
      cases kind <;> first | rfl | cases statement
    rw [simple]
    exact .simple (quoted.frames (.nil _))
  | true =>
    cases kind <;> simp only [Kind.isStatement, Bool.false_eq_true] at statement
    case expressionSwitchStatement => exact switch_quotes quoted sound
    case block => exact whole_quotes quoted rfl (stmtsOf_renders sound)
    case labeledStatement => exact whole_quotes quoted rfl (labeledOf_renders sound)
    case ifStatement => exact compound_quotes quoted rfl (branchesOf_renders sound)
    case forStatement => exact compound_quotes quoted rfl (bodiesOf_renders sound)
    case typeSwitchStatement => exact compound_quotes quoted rfl (clauseBlocksOf_renders sound)
    case selectStatement => exact compound_quotes quoted rfl (clauseBlocksOf_renders sound)

/-- All that is read from a tree in place quotes the source. -/
theorem sound_of_quoted {t : Tree} (quoted : t.Quoted source) : Sound source t := by
  induction t using node_induction with
  | leaf as l =>
    have frames : (leaf as l).span.Frames source [] := quoted.frames (.nil _)
    refine ⟨quoted, .simple frames, ?_, ?_⟩
    · rintro _ _ ⟨⟩
    · rintro _ ⟨⟩
  | node kind children ih =>
    have sound (c) (hc : c ∈ children) : Sound source c.2 := ih c hc (quoted.quoted hc)
    refine ⟨quoted, toStmt_quotes quoted sound, ?_, ?_⟩
    · rintro _ _ ⟨⟩
      exact stmtsOf_renders sound
    · rintro _ ⟨⟩
      exact case_quotes quoted sound

/-! ### Declarations and files -/

theorem toDecl_span (t : Tree) : t.toDecl.span = t.span := by
  unfold toDecl
  split <;> rfl

theorem toDecl_quotes {t : Tree} (quoted : t.Quoted source) : t.toDecl.Quotes source := by
  unfold toDecl
  split
  · rename_i function
    cases child : t.child? .body with
    | none => exact .function (quoted.frames (.nil _)) (by simp)
    | some body =>
      obtain ⟨inner, rfl⟩ := body_is_block function quoted.admitted child
      have inside : (node .block inner).Quoted source := quoted.quoted (mem_of_child child)
      have block : Block.Quotes source (toBlock (node .block inner)) := (sound_of_quoted inside).block
      have spread := (Spread.one inside.filled).mono (leaves_of_children (mem_of_child child))
      exact .function (quoted.frames spread) (by simpa using block)
  · exact .other (quoted.frames (.nil _))

theorem toSourceFile_quotes {t : Tree} (stands : t.StandsIn source.toList) :
    t.toSourceFile.Quotes source := by
  have quoted (c) (hc : c ∈ t.namedChildren) : c.2.Quoted source :=
    stands.quoted (List.mem_of_mem_filter hc)
  constructor
  · have spread : Spread (t.namedChildren.map Prod.snd) t.leaves := by
      refine ⟨?_, List.forall_mem_map.mpr fun c hc => (quoted c hc).filled⟩
      cases t with
      | leaf as l => exact List.nil_sublist _
      | node kind children =>
        rw [leaves, childLeaves_eq, List.flatMap_map]
        exact List.filter_sublist.flatMap _
    have spans : t.toSourceFile.decls.map Decl.span = (t.namedChildren.map Prod.snd).map span := by
      simp [toSourceFile, toDecl_span]
    rw [spans]
    refine ⟨?_, (spread.arranges stands.ordered).apart⟩
    rw [List.map_map, List.forall_mem_map]
    intro c hc
    obtain ⟨text, covers⟩ := (quoted c hc).covers (quoted c hc).filled
    exact ⟨Nat.zero_le _, covers.bounded⟩
  · exact List.forall_mem_map.mpr fun c hc => toDecl_quotes (quoted c hc)

end Sound

end Tree

theorem parseTree_stands {source : String} {t : Tree} (read : parseTree source = .ok t) :
    t.StandsIn source.toList := by
  obtain ⟨steps, built⟩ := parseTree_eq_ok read
  exact ⟨parseTree_placed read, Tree.ofSteps_stands built⟩

/-- Whatever source is accepted, the file that is read quotes it. -/
theorem parse_quotes {source : String} {file : SourceFile} (read : parse source = .ok file) :
    file.Quotes source := by
  obtain ⟨t, concrete, rfl⟩ := parse_eq_ok read
  exact Tree.toSourceFile_quotes (parseTree_stands concrete)

/-- A file with two-byte letters, line breaks of two characters and a string of two lines. -/
def accentedSource : String :=
  "package p\r\n\r\nfunc f() \x7b\r\n\ts := \x60é\r\n\x60; switch é.ü \x7b\r\n\tcase é.ö:\r\n\t\x7d\r\n\x7d\r\n"

theorem parse_quotes_accents :
    ∃ file, parse accentedSource = .ok file ∧
      (file.functions.map fun f => f.body.map fun body => (Stmt.switches body.stmts).map Prod.snd) =
        [some [⟨39, 71, 5, 4⟩]] ∧
      file.Quotes accentedSource := by
  have run : (parse accentedSource).toOption.map (fun file => file.functions.map fun f =>
      f.body.map fun body => (Stmt.switches body.stmts).map Prod.snd) =
        some [some [⟨39, 71, 5, 4⟩]] := by decide +kernel
  obtain ⟨file, read, found⟩ := parse_of_run run
  exact ⟨file, read, found, parse_quotes read⟩

end Go

end SwitchLint
