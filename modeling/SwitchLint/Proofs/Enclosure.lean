import SwitchLint.Proofs.Replay

/-!
The switches of a tree that only statements enclose, and where they start.
-/

namespace SwitchLint.Go.Tree

/-- The one tree is the other or stands inside it, and all that lies between are statements, lists of
statements and clauses. -/
inductive Encloses : Tree → Tree → Prop
  | self {t} : Encloses t t
  | within {kind children c t} : kind.nests = true → c ∈ children → Encloses c.2 t →
      Encloses (.node kind children) t

def isSwitch (t : Tree) : Bool := t.isKind .expressionSwitchStatement

mutual

/-- The switches over expressions that the tree encloses, each before those inside it. -/
def switches : Tree → List Tree
  | leaf _ _ => []
  | node kind children =>
    (if kind = .expressionSwitchStatement then [node kind children] else []) ++
      if kind.nests then switchesOf children else []

/-- `switches` of all the children. -/
def switchesOf : List (Option Field × Tree) → List Tree
  | [] => []
  | (_, c) :: cs => switches c ++ switchesOf cs

end

theorem switchesOf_eq (children : List (Option Field × Tree)) :
    switchesOf children = children.flatMap fun c => c.2.switches := by
  induction children with
  | nil => rfl
  | cons c children ih => rw [switchesOf, List.flatMap_cons, ih]

theorem isSwitch_node (kind : Kind) (children : List (Option Field × Tree)) :
    (node kind children).isSwitch = true ↔ kind = .expressionSwitchStatement := by
  simp [isSwitch, isKind, kind?]

/-- A tree whose kind does not nest encloses nothing but itself. -/
theorem switches_of_not_nests {kind : Kind} (flat : kind.nests = false)
    (children : List (Option Field × Tree)) : (node kind children).switches = [] := by
  have other : kind ≠ .expressionSwitchStatement := by
    rintro rfl
    cases flat
  simp [switches, flat, other]

theorem mem_switches (t s : Tree) : s ∈ t.switches ↔ Encloses t s ∧ s.isSwitch = true := by
  induction t using node_induction generalizing s with
  | leaf as l =>
    simp only [switches, List.not_mem_nil, false_iff]
    rintro ⟨enclosed, switch⟩
    cases enclosed
    cases switch
  | node kind children ih =>
    simp only [switches, switchesOf_eq, List.mem_append]
    constructor
    · rintro (here | inside)
      · split at here
        · rename_i hit
          obtain rfl := List.mem_singleton.mp here
          exact ⟨.self, (isSwitch_node kind children).mpr hit⟩
        · cases here
      · split at inside
        · rename_i nests
          obtain ⟨c, hc, hs⟩ := List.mem_flatMap.mp inside
          obtain ⟨enclosed, switch⟩ := (ih c hc s).mp hs
          exact ⟨.within nests hc enclosed, switch⟩
        · cases inside
    · rintro ⟨enclosed, switch⟩
      cases enclosed with
      | self => exact .inl (by simp [(isSwitch_node kind children).mp switch])
      | within nests hc enclosed =>
        refine .inr ?_
        rw [if_pos nests]
        exact List.mem_flatMap.mpr ⟨_, hc, (ih _ hc s).mpr ⟨enclosed, switch⟩⟩

/-! ### Where trees start -/

/-- The first leaf. -/
def opener (t : Tree) : Option (Leaf × Lexeme) := t.leaves.head?

theorem first_eq (t : Tree) : t.first? = t.opener.map fun l => leafSpan l.1 l.2 := by
  unfold opener
  induction t using node_induction with
  | leaf as l => rfl
  | node kind children ih =>
    rw [first?, leaves]
    induction children with
    | nil => rfl
    | cons c children later =>
      obtain ⟨head, tail⟩ := List.forall_mem_cons.mp ih
      rw [firstOf?, childLeaves, head, later tail, List.head?_append]
      cases c.2.leaves.head? <;> rfl

theorem last_eq (t : Tree) : t.last? = t.leaves.getLast?.map fun l => leafSpan l.1 l.2 := by
  induction t using node_induction with
  | leaf as l => rfl
  | node kind children ih =>
    rw [last?, leaves]
    induction children with
    | nil => rfl
    | cons c children later =>
      obtain ⟨head, tail⟩ := List.forall_mem_cons.mp ih
      rw [lastOf?, childLeaves, head, later tail, List.getLast?_append]
      cases (childLeaves children).getLast? <;> rfl

/-- A tree starts where its first leaf does. -/
theorem span_start {t : Tree} {l : Leaf × Lexeme} (first : t.opener = some l) :
    t.span.start = (rangeOf l).1 := by
  have some : t.leaves ≠ [] := by
    intro none
    rw [opener, none] at first
    cases first
  rw [span, first_eq, first, last_eq, List.getLast?_eq_some_getLast some]
  rfl

/-- A node begins with the keyword or the bracket that the productions ask for. -/
theorem opener_of_admits {kind : Kind} {children : List (Option Field × Tree)} {text : String}
    (opening : kind.opening? = some text) (admits : kind.admits children = true) :
    ∃ l rest, children = (none, .leaf .mark l) :: rest ∧ l.text = text := by
  simp only [Kind.admits, Bool.and_eq_true] at admits
  have opens := admits.1.1
  unfold Kind.opensWith at opens
  rw [opening] at opens
  split at opens
  · rename_i absent
    cases absent
  · cases opens
  · rename_i absent _ _
    cases absent
  · rename_i l rest same
    cases same
    exact ⟨l, rest, rfl, eq_of_beq (Bool.and_eq_true_iff.mp opens).1⟩
  · cases opens

theorem openers_of_children (children : List (Option Field × Tree)) :
    ((children.map Prod.snd).filterMap opener).Sublist (childLeaves children) := by
  induction children with
  | nil => exact .slnil
  | cons c children ih =>
    rw [List.map_cons, childLeaves]
    cases first : c.2.opener with
    | none =>
      rw [List.filterMap_cons_none first]
      exact ih.trans (List.sublist_append_right _ _)
    | some l =>
      obtain ⟨more, leaves⟩ := List.head?_eq_some_iff.mp first
      rw [List.filterMap_cons_some first, leaves, List.cons_append]
      exact (ih.trans (List.sublist_append_right _ _)).cons_cons l

/-- The switches begin at leaves that follow one another. -/
theorem openers_of_switches {t : Tree} (admitted : t.Admitted) :
    (t.switches.filterMap opener).Sublist t.leaves := by
  induction t using node_induction with
  | leaf as l => exact List.nil_sublist _
  | node kind children ih =>
    obtain ⟨admits, all⟩ := admitted.of_node
    have inside (cs : List (Option Field × Tree)) (some : ∀ c ∈ cs, c ∈ children) :
        ((switchesOf cs).filterMap opener).Sublist (childLeaves cs) := by
      induction cs with
      | nil => exact .slnil
      | cons c cs later =>
        obtain ⟨head, tail⟩ := List.forall_mem_cons.mp some
        rw [switchesOf, childLeaves, List.filterMap_append]
        exact (ih c head (all c head)).append (later tail)
    rw [switches, leaves]
    by_cases hit : kind = .expressionSwitchStatement
    · subst hit
      have opening : Kind.expressionSwitchStatement.opening? = some "switch" := rfl
      have nests : Kind.expressionSwitchStatement.nests = true := rfl
      obtain ⟨l, rest, rfl, -⟩ := opener_of_admits opening admits
      have later := inside rest fun c hc => List.mem_cons_of_mem _ hc
      have first : (node .expressionSwitchStatement ((none, leaf .mark l) :: rest)).opener =
          some (.mark, l) := rfl
      rw [if_pos rfl, if_pos nests, List.singleton_append, List.filterMap_cons_some first]
      exact later.cons_cons _
    · rw [if_neg hit, List.nil_append]
      split
      · exact inside children fun c hc => hc
      · exact List.nil_sublist _

/-- The tree begins with a fixed spelling. -/
def Worded (t : Tree) : Prop := ∃ l, t.opener = some (.mark, l) ∧ l.text ≠ ""

theorem worded_of_admits {kind : Kind} {children : List (Option Field × Tree)} {text : String}
    (opening : kind.opening? = some text) (filled : text ≠ "") (admits : kind.admits children = true) :
    (node kind children).Worded := by
  obtain ⟨l, rest, rfl, rfl⟩ := opener_of_admits opening admits
  exact ⟨l, rfl, filled⟩

/-- Trees that begin with fixed spellings at leaves that follow one another start one after the other. -/
theorem starts_increase {ts : List Tree} {leaves : List (Leaf × Lexeme)}
    (ordered : InOrder (leaves.map rangeOf)) (measured : ∀ l ∈ leaves, l.2.Measured)
    (openers : (ts.filterMap opener).Sublist leaves) (worded : ∀ t ∈ ts, t.Worded) :
    ts.Pairwise fun a b => a.span.start < b.span.start := by
  have apart := (ordered.sublist (openers.map rangeOf)).apart
  rw [List.pairwise_map, List.pairwise_filterMap] at apart
  refine apart.imp_of_mem ?_
  intro a b ha hb follows
  obtain ⟨l, first, filled⟩ := worded a ha
  obtain ⟨m, second, -⟩ := worded b hb
  have ends := follows _ first _ second
  have known := measured (.mark, l) (openers.subset (List.mem_filterMap.mpr ⟨a, ha, first⟩))
  have nonempty : l.text.toList ≠ [] := by simpa using filled
  rw [span_start first, span_start second]
  refine Nat.lt_of_lt_of_le ?_ ends
  change l.start.offset < l.stop
  rw [known]
  exact Position.lt_after l.start nonempty

end SwitchLint.Go.Tree
