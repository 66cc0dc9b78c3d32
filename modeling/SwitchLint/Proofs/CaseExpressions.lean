import SwitchLint.Proofs.Quoting

/-!
The expressions of the cases of a file that is read. Each is the expression of a subtree of the source,
inside one of its declarations.
-/

namespace SwitchLint

/-- The expressions of the cases of all switches in the functions of a file. -/
def SourceFile.caseExpressions (file : SourceFile) : List Expr :=
  (file.functions.filterMap Function.body).flatMap fun body =>
    (Stmt.switches body.stmts).flatMap fun s => caseExprs s.1

theorem exists_of_forall₂ {α β : Type} {R : α → β → Prop} {xs : List α} {ys : List β}
    (related : List.Forall₂ R xs ys) {y : β} (member : y ∈ ys) : ∃ x ∈ xs, R x y := by
  induction related with
  | nil => cases member
  | cons here _ ih =>
    rcases List.mem_cons.mp member with rfl | later
    · exact ⟨_, List.mem_cons_self, here⟩
    · obtain ⟨x, hx, found⟩ := ih later
      exact ⟨x, List.mem_cons_of_mem _ hx, found⟩

namespace Go

namespace Tree

/-- The tree can be read as an expression: the productions admit it inside another one, and it is no
line break. -/
structure Legible (t : Tree) : Prop where
  admitted : t.Admitted
  inner : t.isKind .sourceFile = false
  solid : ∀ l, t ≠ leaf .lineBreak l

theorem caseExpressions_inside {t u : Tree} (case : t.isCase = true) (admitted : t.Admitted)
    (member : u ∈ t.caseExpressions) : u.leaves.Sublist t.leaves ∧ u.Legible := by
  obtain ⟨children, rfl⟩ := node_of_isKind case
  obtain ⟨⟨f, values⟩, value, member⟩ := List.mem_flatMap.mp member
  obtain ⟨child, filled⟩ := List.mem_filter.mp value
  obtain rfl : f = some .value := eq_of_beq filled
  obtain ⟨inner, rfl⟩ := fills rfl (children_of_admits admitted.of_node.1 _ child)
  obtain ⟨member, noComma⟩ := List.mem_filter.mp member
  obtain ⟨c, hc, rfl⟩ := List.mem_map.mp member
  obtain ⟨admits, all⟩ := (admitted.of_node.2 _ child).of_node
  have admitted := children_of_admits admits c hc
  refine ⟨(leaves_of_child hc).trans (leaves_of_child child), all c hc, isKind_of_admits admitted, ?_⟩
  intro l same
  have named := named_iff_not_comma admitted
  rw [noComma, same] at named
  cases named

/-- The expressions of the cases of a switch come from trees inside it. -/
theorem caseExpr_of_lowered {t : Tree} {s : List Clause × Span} (lowered : LowersSwitch t s)
    (admitted : t.Admitted) {e : Expr} (member : e ∈ caseExprs s.1) :
    ∃ u : Tree, u.leaves.Sublist t.leaves ∧ u.Legible ∧ e = u.toExpr := by
  obtain ⟨es, hes, he⟩ := List.mem_flatten.mp member
  obtain ⟨c, hc, exprs⟩ := List.mem_filterMap.mp hes
  obtain ⟨clause, listed, read⟩ := exists_of_forall₂ lowered.clauses hc
  obtain ⟨listed, kind⟩ := List.mem_filter.mp listed
  obtain ⟨child, hchild, rfl⟩ := List.mem_map.mp listed
  have inside := leaves_of_children hchild
  rcases Bool.or_eq_true_iff.mp kind with case | default
  · rw [read.values case] at exprs
    obtain rfl := Option.some.inj exprs
    obtain ⟨u, hu, rfl⟩ := List.mem_map.mp he
    cases t with
    | leaf as l => cases hchild
    | node kind children =>
      obtain ⟨sub, legible⟩ := caseExpressions_inside case (admitted.of_node.2 _ hchild) hu
      exact ⟨u, sub.trans inside, legible, rfl⟩
  · rw [read.default default] at exprs
    cases exprs

end Tree

/-- The expressions of the cases of a file come from trees inside its declarations. -/
theorem caseExpr_of_parse {source : String} {file : SourceFile} (read : parse source = .ok file)
    {body : Block} (declared : body ∈ file.functions.filterMap Function.body) {clauses : List Clause}
    {span : Span} (switch : (clauses, span) ∈ Stmt.switches body.stmts) {e : Expr}
    (member : e ∈ caseExprs clauses) :
    ∃ t, parseTree source = .ok t ∧ ∃ c ∈ t.children, ∃ u : Tree, u.leaves.Sublist c.2.leaves ∧
      u.Legible ∧ e = u.toExpr := by
  obtain ⟨t, concrete, rfl⟩ := parse_eq_ok read
  have placed := parseTree_placed concrete
  obtain ⟨f, hf, hbody⟩ := List.mem_filterMap.mp declared
  obtain ⟨d, hd, keeps⟩ := exists_of_forall₂ (Tree.toSourceFile_keeps placed) hf
  obtain ⟨declares, -⟩ := List.mem_filter.mp hd
  obtain ⟨c, hc, rfl⟩ := List.mem_map.mp declares
  refine ⟨t, concrete, c, hc, ?_⟩
  cases inside : c.2.child? .body with
  | none =>
    rw [keeps.external.mpr inside] at hbody
    cases hbody
  | some tree =>
    obtain ⟨found, lists, lowers⟩ := keeps.switches tree body inside hbody
    obtain ⟨s, hs, lowered⟩ := exists_of_forall₂ lowers switch
    have child := Tree.mem_of_child inside
    have enclosed := ((lists.exact s).mp hs).1
    have admitted := Tree.admitted_of_enclosed enclosed ((placed.child hc).child child).admitted
    obtain ⟨u, sub, legible, same⟩ := Tree.caseExpr_of_lowered lowered admitted member
    have leaves := (Tree.leaves_of_enclosed enclosed).trans (Tree.leaves_of_children child)
    exact ⟨u, sub.trans leaves, legible, same⟩

end Go

end SwitchLint
