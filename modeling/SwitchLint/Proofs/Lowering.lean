import Mathlib.Data.List.Forall2
import SwitchLint.Go.Reading
import SwitchLint.Proofs.Enclosure
import SwitchLint.Proofs.Nesting

/-!
Lowering keeps the switches. Those of a lowered body are the switches over expressions that the body
encloses through statements only, each once and in the order of the source, with all their clauses.
-/

namespace SwitchLint

/-- The clauses and the range of a statement that is a switch. -/
def Stmt.switch? : Stmt → Option (List Clause × Span)
  | .switch clauses span => some (clauses, span)
  | _ => none

/-- The switches among statements and all statements inside them, in preorder. -/
def Stmt.switches (stmts : List Stmt) : List (List Clause × Span) :=
  (Stmt.preorderList stmts).filterMap Stmt.switch?

namespace Stmt

theorem switches_append (ss ts : List Stmt) : switches (ss ++ ts) = switches ss ++ switches ts := by
  simp [switches, preorderList_eq]

theorem switches_compound (kind : CompoundKind) (blocks : List Block) (span : Span) :
    switches [.compound kind blocks span] = switches (blocks.flatMap Block.stmts) := by
  simp [switches, preorderList_eq, preorder, preorderBlocks_eq, switch?, List.filterMap_cons]

theorem switches_switch (clauses : List Clause) (span : Span) :
    switches [.switch clauses span] = (clauses, span) :: switches (clauses.flatMap Clause.body) := by
  simp [switches, preorderList_eq, preorder, preorderClauses_eq, switch?]

end Stmt

namespace Go.Tree

/-! ### What a lowered switch keeps -/

def isCase (t : Tree) : Bool := t.isKind .expressionCase

def isDefault (t : Tree) : Bool := t.isKind .defaultCase

/-- The clauses of a switch over expressions. -/
def switchClauses (t : Tree) : List Tree :=
  (t.children.map Prod.snd).filter fun c => c.isCase || c.isDefault

def isComma : Tree → Bool
  | leaf .mark l => l.text == ","
  | _ => false

/-- The expressions of a clause: what stands between the commas of its values. -/
def caseExpressions (t : Tree) : List Tree :=
  (t.children.filter (·.1 == some .value)).flatMap fun c =>
    (c.2.children.map Prod.snd).filter (!·.isComma)

/-- The clause is the lowered one. -/
structure LowersClause (t : Tree) (c : Clause) : Prop where
  span : c.span = t.span
  values : t.isCase = true → c.exprs = some (t.caseExpressions.map toExpr)
  default : t.isDefault = true → c.exprs = none

/-- The switch is the lowered one, with one clause for each in the source. -/
structure LowersSwitch (t : Tree) (s : List Clause × Span) : Prop where
  span : s.2 = t.span
  clauses : List.Forall₂ LowersClause t.switchClauses s.1

/-- The switches of the statements are the lowered ones. -/
def Lowers (switches : List Tree) (stmts : List Stmt) : Prop :=
  List.Forall₂ LowersSwitch switches (Stmt.switches stmts)

theorem Lowers.append {ts us : List Tree} {ss rs : List Stmt} (first : Lowers ts ss)
    (second : Lowers us rs) : Lowers (ts ++ us) (ss ++ rs) := by
  unfold Lowers
  rw [Stmt.switches_append]
  exact List.rel_append first second

theorem Lowers.nil : Lowers [] [] := List.Forall₂.nil

/-! ### What the productions say of one child -/

theorem children_of_admits {kind : Kind} {children : List (Option Field × Tree)}
    (admits : kind.admits children = true) : ∀ c ∈ children, kind.admitsChild c = true := by
  simp only [Kind.admits, Bool.and_eq_true] at admits
  exact List.all_eq_true.mp admits.1.2

/-- Nodes of the kind are lowered on their own, not as a part of what they stand in. -/
def Alone (kind : Kind) : Prop := kind.isClause = false ∧ kind ≠ .statementList

theorem alone_of_flat {kind : Kind} (flat : kind.nests = false) : Alone kind := by
  simp only [Kind.nests, Bool.or_eq_false_iff, beq_eq_false_iff_ne] at flat
  exact ⟨flat.1.2, flat.2⟩

theorem alone_of_statement {kind : Kind} (statement : kind.isStatement = true) : Alone kind := by
  cases kind <;> first | exact ⟨rfl, by decide⟩ | cases statement

theorem flat_or_taken {parent kind : Kind} {field : Option Field} {inner : List (Option Field × Tree)}
    (admitted : parent.admitsChild (field, node kind inner) = true) :
    kind.nests = false ∨ parent.takes field kind = true := by
  simp only [Kind.admitsChild, Bool.and_eq_true, Bool.or_eq_true, Bool.not_eq_true'] at admitted
  exact admitted.2

/-- What fills a field that only one kind can fill. -/
theorem fills {parent kind : Kind} {f : Field} {t : Tree} (only : parent.filler? f = some kind)
    (admitted : parent.admitsChild (some f, t) = true) : ∃ inner, t = node kind inner := by
  cases t with
  | leaf as l => simp [Kind.admitsChild, only] at admitted
  | node kind' inner =>
    simp only [Kind.admitsChild, Option.bind_some, only, Option.all_some, Bool.and_eq_true,
      beq_iff_eq] at admitted
    exact ⟨inner, by rw [admitted.1.2]⟩

/-! ### Lists of statements -/

/-- The kinds whose children are, among others, lists of statements or statements. -/
def listing : List Kind :=
  [.block, .statementList, .expressionCase, .defaultCase, .typeCase, .communicationCase]

/-- Lists of statements hold statements, and what owns such a list holds it in no field. -/
theorem taken_by_listing {parent kind : Kind} {f : Option Field} (lists : parent ∈ listing)
    (taken : parent.takes f kind = true) :
    f = none ∧ (kind = .statementList ∨ kind.isStatement = true) := by
  simp only [listing, List.mem_cons, List.not_mem_nil, or_false] at lists
  cases f with
  | some f => rcases lists with rfl | rfl | rfl | rfl | rfl | rfl <;> cases taken
  | none =>
    refine ⟨rfl, ?_⟩
    rcases lists with rfl | rfl | rfl | rfl | rfl | rfl
    case inr.inl => exact .inr taken
    all_goals exact .inl (beq_iff_eq.mp taken)

/-- The switches of the tree are lowered: those of its list of statements, and those of the statement
that it is. -/
structure Faithful (t : Tree) : Prop where
  inner : ∀ kind children, t = node kind children → kind ∈ listing →
    Lowers (switchesOf children) (stmtsOf children)
  whole : ∀ kind children, t = node kind children → Alone kind → Lowers t.switches [t.toStmt]

/-- Children are lowered one by one. -/
theorem lowers_children {parent : Kind} (parts : List (Option Field × Tree) → List Stmt)
    (none : parts [] = []) {children : List (Option Field × Tree)}
    (admitted : ∀ c ∈ children, parent.admitsChild c = true) (faithful : ∀ c ∈ children, Faithful c.2)
    (each : ∀ f t cs, parent.admitsChild (f, t) = true → Faithful t →
      ∃ part, Lowers t.switches part ∧ parts ((f, t) :: cs) = part ++ parts cs) :
    Lowers (switchesOf children) (parts children) := by
  induction children with
  | nil =>
    rw [none]
    exact .nil
  | cons c children ih =>
    obtain ⟨admits, admitted⟩ := List.forall_mem_cons.mp admitted
    obtain ⟨known, faithful⟩ := List.forall_mem_cons.mp faithful
    obtain ⟨part, lowers, whole⟩ := each c.1 c.2 children admits known
    rw [switchesOf, whole]
    exact lowers.append (ih admitted faithful)

theorem lowers_nothing {kind : Kind} (flat : kind.nests = false) (inner : List (Option Field × Tree)) :
    Lowers (node kind inner).switches [] := by
  rw [switches_of_not_nests flat]
  exact .nil

/-- A child that is no part of the statements around it has no switches to lower. -/
theorem lowers_skipped {parent : Kind} {f : Option Field} {t : Tree}
    (admitted : parent.admitsChild (f, t) = true)
    (skipped : ∀ kind inner, t = node kind inner → parent.takes f kind ≠ true) : Lowers t.switches [] := by
  cases t with
  | leaf as l => exact .nil
  | node kind inner =>
    rcases flat_or_taken admitted with flat | taken
    · exact lowers_nothing flat inner
    · exact absurd taken (skipped kind inner rfl)

theorem stmtsOf_node {kind : Kind} (alone : Alone kind) (inner cs : List (Option Field × Tree)) :
    stmtsOf ((none, node kind inner) :: cs) = [toStmt (node kind inner)] ++ stmtsOf cs := by
  rw [stmtsOf]
  · rfl
  · exact alone.2

theorem stmtsOf_lowers {parent : Kind} (lists : parent ∈ listing)
    {children : List (Option Field × Tree)} (admitted : ∀ c ∈ children, parent.admitsChild c = true)
    (faithful : ∀ c ∈ children, Faithful c.2) : Lowers (switchesOf children) (stmtsOf children) := by
  refine lowers_children stmtsOf rfl admitted faithful fun f t cs here known => ?_
  cases t with
  | leaf as l => exact ⟨[], .nil, by cases f <;> rfl⟩
  | node kind inner =>
    rcases flat_or_taken here with flat | taken
    · cases f with
      | some f => exact ⟨[], lowers_nothing flat inner, rfl⟩
      | none =>
        have alone := alone_of_flat flat
        exact ⟨_, known.whole kind inner rfl alone, stmtsOf_node alone inner cs⟩
    · obtain ⟨rfl, rfl | statement⟩ := taken_by_listing lists taken
      · exact ⟨stmtsOf inner, known.inner _ inner rfl (by decide), rfl⟩
      · have alone := alone_of_statement statement
        exact ⟨_, known.whole kind inner rfl alone, stmtsOf_node alone inner cs⟩

/-! ### Branches, bodies and clauses -/

theorem taken_by_if {kind : Kind} {f : Option Field} (taken : Kind.ifStatement.takes f kind = true) :
    (f = some .consequence ∧ kind = .block) ∨
      (f = some .alternative ∧ (kind = .block ∨ kind = .ifStatement)) := by
  unfold Kind.takes at taken
  split at taken <;> simp_all

theorem branchesOf_lowers {children : List (Option Field × Tree)}
    (admitted : ∀ c ∈ children, Kind.ifStatement.admitsChild c = true)
    (faithful : ∀ c ∈ children, Faithful c.2) :
    Lowers (switchesOf children) ((branchesOf children).flatMap Block.stmts) := by
  refine lowers_children (fun cs => (branchesOf cs).flatMap Block.stmts) rfl admitted faithful
    fun f t cs here known => ?_
  rw [branchesOf.eq_def]
  split
  · contradiction
  · rename_i inner _ same
    cases same
    exact ⟨stmtsOf inner, known.inner _ inner rfl (by decide), List.flatMap_cons⟩
  · rename_i inner _ same
    cases same
    exact ⟨stmtsOf inner, known.inner _ inner rfl (by decide), List.flatMap_cons⟩
  · rename_i other same
    cases same
    refine ⟨[t.toStmt], ?_, List.flatMap_cons⟩
    cases t with
    | leaf as l => exact .nil
    | node kind inner =>
      refine known.whole kind inner rfl ?_
      rcases flat_or_taken here with flat | taken
      · exact alone_of_flat flat
      · obtain ⟨wrong, -⟩ | ⟨-, rfl | rfl⟩ := taken_by_if taken
        · cases wrong
        · exact absurd rfl (other inner)
        · exact alone_of_statement rfl
  · rename_i noBranch _ noAlternative same
    cases same
    refine ⟨[], lowers_skipped here ?_, rfl⟩
    rintro kind inner rfl taken
    obtain ⟨rfl, rfl⟩ | ⟨rfl, -⟩ := taken_by_if taken
    · exact absurd rfl (noBranch inner rfl)
    · exact absurd rfl noAlternative

theorem taken_by_for {kind : Kind} {f : Option Field} (taken : Kind.forStatement.takes f kind = true) :
    f = some .body := by
  unfold Kind.takes at taken
  split at taken <;> simp_all

theorem bodiesOf_lowers {children : List (Option Field × Tree)}
    (admitted : ∀ c ∈ children, Kind.forStatement.admitsChild c = true)
    (faithful : ∀ c ∈ children, Faithful c.2) :
    Lowers (switchesOf children) ((bodiesOf children).flatMap Block.stmts) := by
  refine lowers_children (fun cs => (bodiesOf cs).flatMap Block.stmts) rfl admitted faithful
    fun f t cs here known => ?_
  rw [bodiesOf.eq_def]
  split
  · contradiction
  · rename_i kind inner _ same
    cases same
    obtain ⟨_, same⟩ := fills rfl here
    cases same
    exact ⟨stmtsOf inner, known.inner _ inner rfl (by decide), List.flatMap_cons⟩
  · rename_i noBody same
    cases same
    refine ⟨[], lowers_skipped here ?_, rfl⟩
    rintro kind inner rfl taken
    exact absurd rfl (noBody kind inner (taken_by_for taken))

theorem labeledOf_lowers {children : List (Option Field × Tree)}
    (admitted : ∀ c ∈ children, Kind.labeledStatement.admitsChild c = true)
    (faithful : ∀ c ∈ children, Faithful c.2) :
    Lowers (switchesOf children) (labeledOf children) := by
  refine lowers_children labeledOf rfl admitted faithful fun f t cs here known => ?_
  cases t with
  | leaf as l => exact ⟨[], .nil, rfl⟩
  | node kind inner =>
    refine ⟨[toStmt (node kind inner)], known.whole kind inner rfl ?_, rfl⟩
    rcases flat_or_taken here with flat | taken
    · exact alone_of_flat flat
    · refine alone_of_statement ?_
      unfold Kind.takes at taken
      split at taken <;> simp_all

theorem clauseBlocksOf_lowers {parent : Kind}
    (switch : parent = .typeSwitchStatement ∨ parent = .selectStatement)
    {children : List (Option Field × Tree)} (admitted : ∀ c ∈ children, parent.admitsChild c = true)
    (faithful : ∀ c ∈ children, Faithful c.2) :
    Lowers (switchesOf children) ((clauseBlocksOf children).flatMap Block.stmts) := by
  refine lowers_children (fun cs => (clauseBlocksOf cs).flatMap Block.stmts) rfl admitted faithful
    fun f t cs here known => ?_
  rw [clauseBlocksOf.eq_def]
  split
  · contradiction
  · rename_i inner _ same
    cases same
    exact ⟨stmtsOf inner, known.inner _ inner rfl (by decide), List.flatMap_cons⟩
  · rename_i inner _ same
    cases same
    exact ⟨stmtsOf inner, known.inner _ inner rfl (by decide), List.flatMap_cons⟩
  · rename_i inner _ same
    cases same
    exact ⟨stmtsOf inner, known.inner _ inner rfl (by decide), List.flatMap_cons⟩
  · rename_i noType noCommunication noDefault same
    cases same
    refine ⟨[], lowers_skipped here ?_, rfl⟩
    rintro kind inner rfl taken
    have clause : kind = .typeCase ∨ kind = .communicationCase ∨ kind = .defaultCase := by
      unfold Kind.takes at taken
      split at taken <;> simp_all
    rcases clause with rfl | rfl | rfl
    · exact absurd rfl (noType inner)
    · exact absurd rfl (noCommunication inner)
    · exact absurd rfl (noDefault inner)

theorem clausesOf_lowers {children : List (Option Field × Tree)}
    (admitted : ∀ c ∈ children, Kind.expressionSwitchStatement.admitsChild c = true)
    (faithful : ∀ c ∈ children, Faithful c.2) :
    Lowers (switchesOf children) ((clausesOf children).flatMap Clause.body) := by
  refine lowers_children (fun cs => (clausesOf cs).flatMap Clause.body) rfl admitted faithful
    fun f t cs here known => ?_
  rw [clausesOf.eq_def]
  split
  · contradiction
  · rename_i inner _ same
    cases same
    exact ⟨stmtsOf inner, known.inner _ inner rfl (by decide), List.flatMap_cons⟩
  · rename_i inner _ same
    cases same
    exact ⟨stmtsOf inner, known.inner _ inner rfl (by decide), List.flatMap_cons⟩
  · rename_i noCase noDefault same
    cases same
    refine ⟨[], lowers_skipped here ?_, rfl⟩
    rintro kind inner rfl taken
    have clause : kind = .expressionCase ∨ kind = .defaultCase := by
      unfold Kind.takes at taken
      split at taken <;> simp_all
    rcases clause with rfl | rfl
    · exact absurd rfl (noCase inner)
    · exact absurd rfl (noDefault inner)

/-! ### Every clause and every statement -/

theorem valuesOf_eq {children rest : List (Option Field × Tree)} {f : Option Field} {t : Tree}
    (first : children.filter (·.1 == some .value) = (f, t) :: rest) : valuesOf children = t.caseValues := by
  induction children with
  | nil => cases first
  | cons c children ih =>
    obtain ⟨g, u⟩ := c
    rw [List.filter_cons] at first
    split at first
    · rename_i value
      cases first
      obtain rfl : f = some .value := eq_of_beq value
      rfl
    · rename_i other
      rw [valuesOf, ih first]
      rintro rfl
      exact other rfl

/-- In a list of expressions, what is no comma is an expression. -/
theorem named_iff_not_comma {c : Option Field × Tree}
    (admitted : Kind.expressionList.admitsChild c = true) : c.2.isNamed = !c.2.isComma := by
  obtain ⟨f, t⟩ := c
  cases t with
  | node kind inner => rfl
  | leaf as l =>
    simp only [Kind.admitsChild, Bool.and_eq_true, Bool.or_eq_true, beq_iff_eq] at admitted
    rcases admitted.2 with (wrong | named) | ⟨rfl, comma⟩
    · cases wrong
    · cases as <;> first | rfl | cases named
    · simp [isNamed, Leaf.isNamed, isComma, comma]

theorem caseValues_eq {children : List (Option Field × Tree)}
    (admits : Kind.expressionList.admits children = true) :
    (node .expressionList children).caseValues =
      ((children.map Prod.snd).filter (!·.isComma)).map toExpr := by
  have all := children_of_admits admits
  rw [caseValues, namedChildren, List.filter_map, List.map_map]
  refine congrArg (List.map _) (List.filter_congr fun c hc => ?_)
  exact named_iff_not_comma (all c hc)

theorem clause_lowers {children : List (Option Field × Tree)}
    (admitted : (node .expressionCase children).Admitted) :
    LowersClause (node .expressionCase children)
      (.mk (some (valuesOf children)) (stmtsOf children) (node .expressionCase children).span) where
  span := rfl
  default wrong := by cases wrong
  values _ := by
    obtain ⟨admits, all⟩ := admitted.of_node
    have one : children.countP (·.1 == some .value) = 1 := by
      simp only [Kind.admits, Bool.and_eq_true] at admits
      exact eq_of_beq admits.2
    rw [List.countP_eq_length_filter] at one
    obtain ⟨⟨f, t⟩, values⟩ := List.length_eq_one_iff.mp one
    have member := List.mem_filter.mp (values ▸ List.mem_singleton_self (f, t))
    obtain rfl : f = some .value := eq_of_beq member.2
    have here := children_of_admits admits _ member.1
    obtain ⟨exprs, rfl⟩ := fills rfl here
    have admitsExprs := (all _ member.1).of_node.1
    simp [Clause.exprs, valuesOf_eq values, caseValues_eq admitsExprs, caseExpressions, Tree.children,
      values]

theorem clauses_lower {children : List (Option Field × Tree)}
    (admitted : ∀ c ∈ children, c.2.Admitted) :
    List.Forall₂ LowersClause
      ((children.map Prod.snd).filter fun c => c.isCase || c.isDefault) (clausesOf children) := by
  induction children with
  | nil => exact .nil
  | cons c children ih =>
    obtain ⟨head, tail⟩ := List.forall_mem_cons.mp admitted
    have later := ih tail
    obtain ⟨f, t⟩ := c
    rw [clausesOf.eq_def]
    split
    · contradiction
    · rename_i inner _ same
      cases same
      exact .cons (clause_lowers head) later
    · rename_i inner _ same
      cases same
      exact .cons ⟨rfl, by rintro ⟨⟩, fun _ => rfl⟩ later
    · rename_i noCase noDefault same
      cases same
      have skipped : (t.isCase || t.isDefault) = false := by
        cases t with
        | leaf as l => rfl
        | node kind inner =>
          have notCase : kind ≠ .expressionCase := by
            rintro rfl
            exact noCase inner rfl
          have notDefault : kind ≠ .defaultCase := by
            rintro rfl
            exact noDefault inner rfl
          simp [isCase, isDefault, isKind, kind?, notCase, notDefault]
      rw [List.map_cons, List.filter_cons_of_neg (by simp [skipped])]
      exact later

theorem toStmt_of_not_nests {kind : Kind} (flat : kind.nests = false)
    (children : List (Option Field × Tree)) :
    toStmt (node kind children) = .simple (node kind children).span := by
  cases kind <;> first | rfl | cases flat

/-- What becomes a statement that owns blocks is lowered if its children are. -/
theorem lowers_compound {kind : Kind} {children : List (Option Field × Tree)} {as : CompoundKind}
    {blocks : List Block} (nests : kind.nests = true) (other : kind ≠ .expressionSwitchStatement)
    (compound : toStmt (node kind children) = .compound as blocks (node kind children).span)
    (inside : Lowers (switchesOf children) (blocks.flatMap Block.stmts)) :
    Lowers (node kind children).switches [(node kind children).toStmt] := by
  rw [Lowers, compound, Stmt.switches_compound, switches, if_neg other, if_pos nests, List.nil_append]
  exact inside

theorem lowers_switch {children : List (Option Field × Tree)}
    (clauses : List.Forall₂ LowersClause (node .expressionSwitchStatement children).switchClauses
      (clausesOf children))
    (inside : Lowers (switchesOf children) ((clausesOf children).flatMap Clause.body)) :
    Lowers (node .expressionSwitchStatement children).switches
      [(node .expressionSwitchStatement children).toStmt] := by
  have nests : Kind.expressionSwitchStatement.nests = true := rfl
  rw [Lowers, toStmt, Stmt.switches_switch, switches, if_pos rfl, if_pos nests]
  exact .cons ⟨rfl, clauses⟩ inside

/-- Whatever the productions admit is lowered with all its switches. -/
theorem faithful_of_admitted {t : Tree} (admitted : t.Admitted) : Faithful t := by
  induction t using node_induction with
  | leaf as l => constructor <;> rintro _ _ ⟨⟩
  | node kind children ih =>
    obtain ⟨admits, all⟩ := admitted.of_node
    have stand := children_of_admits admits
    have known := fun c hc => ih c hc (all c hc)
    constructor
    · rintro _ _ ⟨⟩ lists
      exact stmtsOf_lowers lists stand known
    · rintro _ _ ⟨⟩ alone
      cases statement : kind.isStatement with
      | false =>
        have flat : kind.nests = false := by
          simpa [Kind.nests, statement, alone.1] using alone.2
        rw [toStmt_of_not_nests flat]
        exact lowers_nothing flat children
      | true =>
        cases kind <;> simp only [Kind.isStatement, Bool.false_eq_true] at statement
        case block =>
          refine lowers_compound rfl (by decide) rfl ?_
          rw [List.flatMap_singleton]
          exact stmtsOf_lowers (by decide) stand known
        case labeledStatement =>
          refine lowers_compound rfl (by decide) rfl ?_
          rw [List.flatMap_singleton]
          exact labeledOf_lowers stand known
        case ifStatement => exact lowers_compound rfl (by decide) rfl (branchesOf_lowers stand known)
        case forStatement => exact lowers_compound rfl (by decide) rfl (bodiesOf_lowers stand known)
        case typeSwitchStatement =>
          exact lowers_compound rfl (by decide) rfl (clauseBlocksOf_lowers (.inl rfl) stand known)
        case selectStatement =>
          exact lowers_compound rfl (by decide) rfl (clauseBlocksOf_lowers (.inr rfl) stand known)
        case expressionSwitchStatement =>
          exact lowers_switch (clauses_lower all) (clausesOf_lowers stand known)

end Go.Tree

end SwitchLint
