import SwitchLint.Proofs.Lowering

/-!
Reading a source keeps the switches of its functions. The switches of a body that is read are those that
the body of the source encloses through statements only, each once and in the order in which they start.
-/

namespace SwitchLint.Go

namespace Tree

/-! ### Inside a tree -/

theorem leaves_of_child {children : List (Option Field × Tree)} {c : Option Field × Tree}
    (child : c ∈ children) : c.2.leaves.Sublist (childLeaves children) := by
  rw [childLeaves_eq, List.flatMap_def]
  exact List.sublist_flatten_of_mem (List.mem_map_of_mem child)

theorem leaves_of_enclosed {t s : Tree} (enclosed : Encloses t s) : s.leaves.Sublist t.leaves := by
  induction enclosed with
  | self => exact List.Sublist.refl _
  | within nests child enclosed ih => exact ih.trans (leaves_of_child child)

theorem admitted_of_enclosed {t s : Tree} (enclosed : Encloses t s) (admitted : t.Admitted) :
    s.Admitted := by
  induction enclosed with
  | self => exact admitted
  | within nests child enclosed ih => exact ih (admitted.of_node.2 _ child)

/-- The productions admit the tree, and its leaves stand in the order of a source. -/
structure Placed (t : Tree) : Prop where
  admitted : t.Admitted
  ordered : InOrder (t.leaves.map rangeOf)
  measured : ∀ l ∈ t.leaves, l.2.Measured

theorem Placed.sub {t s : Tree} (placed : t.Placed) (admitted : s.Admitted)
    (leaves : s.leaves.Sublist t.leaves) : s.Placed where
  admitted := admitted
  ordered := placed.ordered.sublist (leaves.map rangeOf)
  measured l hl := placed.measured l (leaves.subset hl)

theorem Placed.child {t : Tree} {c : Option Field × Tree} (placed : t.Placed) (child : c ∈ t.children) :
    c.2.Placed := by
  cases t with
  | leaf as l => cases child
  | node kind children =>
    exact placed.sub (placed.admitted.of_node.2 c child) (leaves_of_child child)

theorem Placed.enclosed {t s : Tree} (placed : t.Placed) (enclosed : Encloses t s) : s.Placed :=
  placed.sub (admitted_of_enclosed enclosed placed.admitted) (leaves_of_enclosed enclosed)

/-- The trees start one after the other. -/
def Successive (ts : List Tree) : Prop := ts.Pairwise fun a b => a.span.start < b.span.start

theorem node_of_isKind {t : Tree} {kind : Kind} (is : t.isKind kind = true) :
    ∃ children, t = node kind children := by
  cases t with
  | leaf as l => cases is
  | node kind' children =>
    obtain rfl : kind' = kind := by simpa [isKind, kind?] using is
    exact ⟨children, rfl⟩

theorem worded_of_kind {t : Tree} {kind : Kind} {text : String} (is : t.isKind kind = true)
    (opening : kind.opening? = some text) (filled : text ≠ "") (admitted : t.Admitted) : t.Worded := by
  obtain ⟨children, rfl⟩ := node_of_isKind is
  exact worded_of_admits opening filled admitted.of_node.1

theorem switches_successive {t : Tree} (placed : t.Placed) : Successive t.switches := by
  refine starts_increase placed.ordered placed.measured (openers_of_switches placed.admitted) ?_
  intro s hs
  obtain ⟨enclosed, switch⟩ := (mem_switches t s).mp hs
  exact worded_of_kind switch rfl (by decide) (admitted_of_enclosed enclosed placed.admitted)

theorem clauses_successive {t : Tree} (placed : t.Placed) : Successive t.switchClauses := by
  cases t with
  | leaf as l => exact .nil
  | node kind children =>
    have openers := (List.filter_sublist (p := fun c => c.isCase || c.isDefault)
      (l := children.map Prod.snd)).filterMap opener
    refine starts_increase placed.ordered placed.measured (openers.trans (openers_of_children children)) ?_
    intro c hc
    obtain ⟨member, clause⟩ := List.mem_filter.mp hc
    obtain ⟨c, child, rfl⟩ := List.mem_map.mp member
    have admitted := (placed.child child).admitted
    rcases Bool.or_eq_true_iff.mp clause with is | is
    · exact worded_of_kind is rfl (by decide) admitted
    · exact worded_of_kind is rfl (by decide) admitted

/-! ### Bodies and functions -/

/-- The trees are the switches over expressions that only statements separate from the body, each once,
in the order in which they start, and so are the clauses of each. -/
structure ListsSwitches (body : Tree) (found : List Tree) : Prop where
  exact : ∀ s, s ∈ found ↔ Encloses body s ∧ s.isSwitch = true
  ordered : Successive found
  clauses : ∀ s ∈ found, Successive s.switchClauses

theorem Placed.lists {t : Tree} (placed : t.Placed) : ListsSwitches t t.switches where
  exact := mem_switches t
  ordered := switches_successive placed
  clauses s hs := clauses_successive (placed.enclosed ((mem_switches t s).mp hs).1)

/-- Is the tree a declaration of a function or a method? -/
def isFunction (t : Tree) : Bool := t.isKind .functionDeclaration || t.isKind .methodDeclaration

/-- The functions and methods that a file declares. -/
def functions (t : Tree) : List Tree := (t.children.map Prod.snd).filter isFunction

/-- The function is the one that is declared: it has a body if there is one in the source, and the
switches of the one body are those of the other. -/
structure Keeps (t : Tree) (f : Function) : Prop where
  span : f.span = t.span
  external : f.body = none ↔ t.child? .body = none
  switches : ∀ body block, t.child? .body = some body → f.body = some block →
    ∃ found, ListsSwitches body found ∧ Lowers found block.stmts

theorem mem_of_child {t u : Tree} {f : Field} (child : t.child? f = some u) :
    (some f, u) ∈ t.children := by
  obtain ⟨⟨g, u⟩, found, rfl⟩ := Option.map_eq_some_iff.mp child
  have filled : g = some f := by simpa using List.find?_some found
  exact filled ▸ List.mem_of_find?_eq_some found

theorem body_is_block {t body : Tree} (function : t.isFunction = true) (admitted : t.Admitted)
    (child : t.child? .body = some body) : ∃ children, body = node .block children := by
  have member := mem_of_child child
  rcases Bool.or_eq_true_iff.mp function with is | is
  · obtain ⟨_, rfl⟩ := node_of_isKind is
    exact fills rfl (children_of_admits admitted.of_node.1 _ member)
  · obtain ⟨_, rfl⟩ := node_of_isKind is
    exact fills rfl (children_of_admits admitted.of_node.1 _ member)

theorem toDecl_keeps {t : Tree} (function : t.isFunction = true) (placed : t.Placed) :
    ∃ f, t.toDecl = .function f ∧ t.Keeps f := by
  refine ⟨_, if_pos function, rfl, Option.map_eq_none_iff, ?_⟩
  intro body block child lowered
  have placedBody := placed.child (mem_of_child child)
  obtain ⟨children, rfl⟩ := body_is_block function placed.admitted child
  rw [child] at lowered
  obtain rfl := Option.some.inj lowered
  have faithful := faithful_of_admitted placedBody.admitted
  exact ⟨_, placedBody.lists, faithful.inner _ _ rfl (by decide)⟩

theorem toSourceFile_keeps {t : Tree} (placed : t.Placed) :
    List.Forall₂ Keeps t.functions t.toSourceFile.functions := by
  have all : ∀ c ∈ t.children, c.2.Placed := fun c => placed.child
  simp only [functions, toSourceFile, SourceFile.functions, namedChildren]
  generalize t.children = children at all
  induction children with
  | nil => exact .nil
  | cons c children ih =>
    obtain ⟨head, tail⟩ := List.forall_mem_cons.mp all
    have later := ih tail
    by_cases function : c.2.isFunction = true
    · obtain ⟨f, read, keeps⟩ := toDecl_keeps function head
      have named : c.2.isNamed = true := by
        cases same : c.2 with
        | leaf as l =>
          rw [same] at function
          cases function
        | node kind inner => rfl
      rw [List.map_cons, List.filter_cons_of_pos function, List.filter_cons, if_pos named, List.map_cons,
        read, List.filterMap_cons]
      exact .cons keeps later
    · have other : c.2.toDecl = .other c.2.span := if_neg function
      rw [List.map_cons, List.filter_cons_of_neg function, List.filter_cons]
      split
      · rw [List.map_cons, other, List.filterMap_cons]
        exact later
      · exact later

end Tree

theorem parseTree_eq_ok {source : String} {t : Tree} (read : parseTree source = .ok t) :
    ∃ steps, Tree.ofSteps steps (Lexeme.scan source) = some t := by
  unfold parseTree at read
  dsimp only at read
  split at read
  · cases read
  · rename_i steps _
    split at read
    · rename_i built
      cases read
      exact ⟨steps, built⟩
    · cases read

theorem parse_eq_ok {source : String} {file : SourceFile} (read : parse source = .ok file) :
    ∃ t, parseTree source = .ok t ∧ t.toSourceFile = file := by
  unfold parse at read
  cases concrete : parseTree source with
  | error e =>
    rw [concrete] at read
    cases read
  | ok t =>
    rw [concrete] at read
    exact ⟨t, rfl, Except.ok.inj read⟩

/-- What is computed from a file that is read says that it is read. -/
theorem parse_of_run {α : Type} {source : String} {f : SourceFile → α} {x : α}
    (run : (parse source).toOption.map f = some x) : ∃ file, parse source = .ok file ∧ f file = x := by
  obtain ⟨file, parsed, found⟩ := Option.map_eq_some_iff.mp run
  refine ⟨file, ?_, found⟩
  cases outcome : parse source with
  | ok file' =>
    rw [outcome] at parsed
    exact congrArg Except.ok (Option.some.inj parsed)
  | error e =>
    rw [outcome] at parsed
    cases parsed

theorem parseTree_placed {source : String} {t : Tree} (read : parseTree source = .ok t) : t.Placed := by
  obtain ⟨steps, built⟩ := parseTree_eq_ok read
  exact ⟨Tree.ofSteps_admitted built, (Tree.ofSteps_ordered built).1, (Tree.ofSteps_ordered built).2⟩

/-- Whatever source is accepted, its functions are kept with all their switches. -/
theorem parse_keeps_switches {source : String} {file : SourceFile} (read : parse source = .ok file) :
    ∃ t, parseTree source = .ok t ∧ List.Forall₂ Tree.Keeps t.functions file.functions := by
  unfold parse at read
  cases concrete : parseTree source with
  | error e =>
    rw [concrete] at read
    cases read
  | ok t =>
    rw [concrete] at read
    obtain rfl := Except.ok.inj read
    exact ⟨t, rfl, Tree.toSourceFile_keeps (parseTree_placed concrete)⟩

/-- A switch with a switch inside an `else`, and one more inside a function literal. -/
def nestedSource : String :=
  "package p\nfunc f() \x7b\n\tswitch a \x7b\n\tcase 1, 2:\n\t\tif b \x7b\n\t\t\x7d else if c \x7b\n" ++
    "\t\t\tswitch \x7b\n\t\t\tdefault:\n\t\t\t\x7d\n\t\t\x7d\n\t\x7d\n\tg = func() \x7b switch \x7b\x7d \x7d\n\x7d\n"

theorem parse_keeps_nested_switches :
    ∃ file, parse nestedSource = .ok file ∧
      (file.functions.map fun f => f.body.map fun body => (Stmt.switches body.stmts).map fun s =>
        s.1.map fun c => c.exprs.map List.length) = [some [[some 2], [none]]] ∧
      ∃ t, parseTree nestedSource = .ok t ∧ List.Forall₂ Tree.Keeps t.functions file.functions := by
  have run : (parse nestedSource).toOption.map (fun file => file.functions.map fun f =>
      f.body.map fun body => (Stmt.switches body.stmts).map fun s =>
        s.1.map fun c => c.exprs.map List.length) = some [some [[some 2], [none]]] := by decide +kernel
  cases read : parse nestedSource with
  | error e =>
    rw [read] at run
    cases run
  | ok file =>
    rw [read] at run
    exact ⟨file, rfl, Option.some.inj run, parse_keeps_switches read⟩

end SwitchLint.Go
