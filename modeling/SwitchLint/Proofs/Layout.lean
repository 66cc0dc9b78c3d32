import Mathlib.Data.List.Forall2
import SwitchLint.Proofs.Scanning
import SwitchLint.Proofs.Walk

/-!
The layout of a source plays no part in what is reported. Two files that are equal once their ranges are
erased have the same statements at the same addresses, and unless a comment allows something the same is
said of the switches there.
-/

namespace SwitchLint

open SwitchLint.Expr

/-! ### Statements without ranges -/

namespace Stmt

mutual

/-- The statement with every range erased. -/
def bare : Stmt → Stmt
  | switch clauses _ => switch (bareClauses clauses) .zero
  | compound kind blocks _ => compound kind (bareBlocks blocks) .zero
  | simple _ => simple .zero

def bareList : List Stmt → List Stmt
  | [] => []
  | s :: ss => s.bare :: bareList ss

def bareClauses : List Clause → List Clause
  | [] => []
  | .mk exprs body _ :: cs =>
    .mk (exprs.map (List.map Expr.bare)) (bareList body) .zero :: bareClauses cs

def bareBlocks : List Block → List Block
  | [] => []
  | .mk stmts _ :: bs => .mk (bareList stmts) .zero :: bareBlocks bs

end

end Stmt

def Clause.bare (c : Clause) : Clause :=
  .mk (c.exprs.map (List.map Expr.bare)) (c.body.map Stmt.bare) .zero

def Block.bare (b : Block) : Block := .mk (b.stmts.map Stmt.bare) .zero

def Function.bare (f : Function) : Function := ⟨f.name, f.body.map Block.bare, .zero⟩

def Decl.bare : Decl → Decl
  | function f => function f.bare
  | other _ => other .zero

def SourceFile.bare (file : SourceFile) : SourceFile := ⟨file.decls.map Decl.bare⟩

namespace Stmt

theorem bareList_eq (stmts : List Stmt) : bareList stmts = stmts.map bare := by
  induction stmts with
  | nil => rfl
  | cons s stmts ih => rw [bareList, ih, List.map_cons]

theorem bareClauses_eq (clauses : List Clause) : bareClauses clauses = clauses.map Clause.bare := by
  induction clauses with
  | nil => rfl
  | cons c clauses ih =>
    cases c with | mk exprs body span =>
    rw [bareClauses, ih, bareList_eq]
    rfl

theorem bareBlocks_eq (blocks : List Block) : bareBlocks blocks = blocks.map Block.bare := by
  induction blocks with
  | nil => rfl
  | cons b blocks ih =>
    cases b with | mk stmts span =>
    rw [bareBlocks, ih, bareList_eq]
    rfl

theorem nested_bare (s : Stmt) : s.bare.nested = s.nested.map bare := by
  cases s with
  | switch clauses span =>
    rw [bare, nested, nested, bareClauses_eq, List.flatMap_map, List.map_flatMap]
    rfl
  | compound kind blocks span =>
    rw [bare, nested, nested, bareBlocks_eq, List.flatMap_map, List.map_flatMap]
    rfl
  | simple span => rfl

/-! ### Addresses -/

/-- The place of a statement once its ranges are erased: the address stays. -/
def barePlace (place : List Nat × Stmt) : List Nat × Stmt := (place.1, place.2.bare)

theorem numbered_bare (look : Stmt → List (List Nat × Stmt)) (stmts : List Stmt)
    (each : ∀ s ∈ stmts, look s.bare = (look s).map barePlace) :
    numbered look (stmts.map bare) = (numbered look stmts).map barePlace := by
  rw [numbered, numbered, List.zipIdx_map, List.flatMap_map, List.map_flatMap]
  apply List.flatMap_congr
  rintro ⟨s, i⟩ member
  have known := each s (List.fst_mem_of_mem_zipIdx member)
  simp only [Prod.map_apply, id_eq, known, List.map_map]
  rfl

theorem located_bare (s : Stmt) : s.bare.located = s.located.map barePlace := by
  induction s using nested_induction with
  | step s ih =>
    rw [located_eq, located_eq, nested_bare, numbered_bare located s.nested ih, List.map_cons]
    rfl

end Stmt

theorem caseExprs_bare (clauses : List Clause) :
    caseExprs (clauses.map Clause.bare) = (caseExprs clauses).map Expr.bare := by
  simp only [caseExprs, List.filterMap_map, List.map_flatten, List.map_filterMap]
  rfl

/-- The statement of a file at an address in the `n`-th body. -/
def SourceFile.stmtAt? (file : SourceFile) (n : Nat) (address : List Nat) : Option Stmt :=
  (file.functions.filterMap Function.body)[n]?.bind (·.stmtAt? address)

theorem bodies_bare (file : SourceFile) :
    file.bare.functions.filterMap Function.body =
      (file.functions.filterMap Function.body).map Block.bare := by
  simp only [SourceFile.functions, SourceFile.bare, List.filterMap_filterMap, List.filterMap_map,
    List.map_filterMap]
  apply List.filterMap_congr
  intro d _
  cases d <;> rfl

/-- Lists that one function makes equal have equal images place by place. -/
theorem paired_of_map_eq {α β : Type} {f : α → β} {xs ys : List α} (same : xs.map f = ys.map f) :
    List.Forall₂ (fun x y => f x = f y ∧ ∃ n : Nat, xs[n]? = some x ∧ ys[n]? = some y) xs ys := by
  induction xs generalizing ys with
  | nil =>
    have none : ys = [] := List.map_eq_nil_iff.mp same.symm
    rw [none]
    exact .nil
  | cons x xs ih =>
    cases ys with
    | nil => cases same
    | cons y ys =>
      obtain ⟨head, tail⟩ := List.cons.inj same
      refine .cons ⟨head, 0, rfl, rfl⟩ ((ih tail).imp ?_)
      rintro a b ⟨equal, n, ha, hb⟩
      exact ⟨equal, n + 1, ha, hb⟩

/-! ### Comments -/

/-- No line carries a directive that applies to the rule. -/
def NoDirective (content rule : String) : Prop :=
  ∀ line ∈ Text.lines content.toList, ∀ d, Directive.parse line = some d → d.names rule = false

theorem directive_of_silent {content rule : String} (silent : NoDirective content rule) (n : Nat) :
    Allowance.directive? content rule n = none := by
  cases n with
  | zero => rfl
  | succ n =>
    cases line : (Text.lines content.toList)[n]? with
    | none => simp [Allowance.directive?, Allowance.line?, line]
    | some text =>
      have member : text ∈ Text.lines content.toList := List.mem_of_getElem? line
      cases given : Directive.parse text with
      | none => simp [Allowance.directive?, Allowance.line?, line, given]
      | some d =>
        have other := silent text member d given
        simp [Allowance.directive?, Allowance.line?, line, given, other]

theorem denied_of_silent {content rule : String} (silent : NoDirective content rule) (line : Nat) :
    Allowance.check content line rule = .denied := by
  simp only [Allowance.check, directive_of_silent silent]

namespace LongChain

/-! ### What is said of one switch -/

theorem scan_same_cases (rule : LongChain) (structural : rule.equivalence = .structural)
    (a b : List Clause) (same : (caseExprs a).map bare = (caseExprs b).map bare) :
    (rule.scan a).map chainText = (rule.scan b).map chainText := by
  have shared := prefixOf_order_independent rule structural a b (.of_eq same)
  have count : (caseExprs a).length = (caseExprs b).length := by simpa using congrArg List.length same
  have length : (rule.prefixOf a).length = (rule.prefixOf b).length := by
    simpa using congrArg List.length shared
  rw [scan_eq, scan_eq, count, length]
  split
  · exact congrArg some (chainText_of_same_places shared)
  · rfl

/-- The two reports say the same, each of its own file, and of switches at one address. -/
structure SaidAlike (file file' : FileContext) (source source' : SourceFile) (v v' : Violation) :
    Prop where
  code : v.code = v'.code
  rule : v.rule = v'.rule
  severity : v.severity = v'.severity
  message : v.message = v'.message
  suggestion : v.suggestion = v'.suggestion
  places : ∃ n address clauses span clauses' span',
    source.stmtAt? n address = some (.switch clauses span) ∧
    source'.stmtAt? n address = some (.switch clauses' span') ∧
    v.location = .ofSpan file.path span ∧ v'.location = .ofSpan file'.path span'

theorem outcome_of_silent (rule : LongChain) (file : FileContext) (clauses : List Clause) (span : Span)
    (silent : NoDirective file.content name) : rule.outcome file clauses span =
      (((rule.scan clauses).map chainText).map (rule.finding (.ofSpan file.path span))).toList := by
  have denied := denied_of_silent silent span.line
  cases reported : rule.scan clauses <;> simp [outcome, reported, denied]

section TwoRuns

variable (rule : LongChain) (structural : rule.equivalence = .structural) {file file' : FileContext}
  (silent : NoDirective file.content name) (silent' : NoDirective file'.content name)
  {source source' : SourceFile}

include structural silent silent'

theorem outcome_said_alike {n : Nat} {address : List Nat} {clauses clauses' : List Clause}
    {span span' : Span} (stands : source.stmtAt? n address = some (.switch clauses span))
    (stands' : source'.stmtAt? n address = some (.switch clauses' span'))
    (same : clauses.map Clause.bare = clauses'.map Clause.bare) :
    List.Forall₂ (SaidAlike file file' source source') (rule.outcome file clauses span)
      (rule.outcome file' clauses' span') := by
  have cases : (caseExprs clauses).map bare = (caseExprs clauses').map bare := by
    rw [← caseExprs_bare, ← caseExprs_bare, same]
  have texts := scan_same_cases rule structural clauses clauses' cases
  rw [outcome_of_silent rule file clauses span silent,
    outcome_of_silent rule file' clauses' span' silent',
    texts]
  cases (rule.scan clauses').map chainText with
  | none => exact .nil
  | some chain =>
    refine .cons ⟨rfl, rfl, rfl, rfl, rfl, ?_⟩ .nil
    exact ⟨n, address, clauses, span, clauses', span', stands, stands', rfl, rfl⟩

/-! ### The walk -/

omit structural silent silent'

/-- A visited switch once its ranges are erased. -/
def bareSwitch (s : List Nat × List Clause × Span) : List Nat × List Clause × Span :=
  (s.1, s.2.1.map Clause.bare, .zero)

theorem look_bare (s : Stmt) : rule.look s.bare = (rule.look s).map Stmt.barePlace := by
  unfold look
  split
  · exact s.located_bare
  · rfl

theorem switchAt_bare (place : List Nat × Stmt) :
    switchAt (Stmt.barePlace place) = (switchAt place).map bareSwitch := by
  obtain ⟨address, s⟩ := place
  cases s with
  | switch clauses span => simp [Stmt.barePlace, Stmt.bare, switchAt, bareSwitch, Stmt.bareClauses_eq]
  | compound kind blocks span => rfl
  | simple span => rfl

theorem visited_bare (body : Block) :
    rule.visited body.bare = (rule.visited body).map bareSwitch := by
  have places := Stmt.numbered_bare rule.look body.stmts fun s _ => look_bare rule s
  have stmts : body.bare.stmts = body.stmts.map Stmt.bare := rfl
  rw [visited, visited, stmts, places, List.filterMap_map, List.map_filterMap]
  exact List.filterMap_congr fun place _ => switchAt_bare place

include structural silent silent'

theorem body_said_alike {n : Nat} {body body' : Block}
    (declared : (source.functions.filterMap Function.body)[n]? = some body)
    (declared' : (source'.functions.filterMap Function.body)[n]? = some body')
    (same : body.bare = body'.bare) :
    List.Forall₂ (SaidAlike file file' source source')
      ((rule.visited body).flatMap fun s => rule.outcome file s.2.1 s.2.2)
      ((rule.visited body').flatMap fun s => rule.outcome file' s.2.1 s.2.2) := by
  have switches : (rule.visited body).map bareSwitch = (rule.visited body').map bareSwitch := by
    rw [← visited_bare, ← visited_bare, same]
  apply List.rel_flatMap (paired_of_map_eq switches)
  rintro ⟨address, clauses, span⟩ ⟨address', clauses', span'⟩ ⟨equal, i, visited, visited'⟩
  obtain ⟨addresses, others⟩ := Prod.mk.inj equal
  obtain rfl : address = address' := addresses
  have stands := (((rule.visited_visits body).complete _ _ _).mp (List.mem_of_getElem? visited)).1
  have stands' := (((rule.visited_visits body').complete _ _ _).mp (List.mem_of_getElem? visited')).1
  have inFile : source.stmtAt? n address = some (.switch clauses span) := by
    simp [SourceFile.stmtAt?, declared, stands]
  have inFile' : source'.stmtAt? n address = some (.switch clauses' span') := by
    simp [SourceFile.stmtAt?, declared', stands']
  have same := (Prod.mk.inj others).1
  exact outcome_said_alike rule structural silent silent' inFile inFile' same

omit structural silent silent'

variable (source source')

/-- Files that differ in their layout only, and in comments that allow nothing, lead to the same report:
place by place the same is said of the switches at the same addresses. -/
theorem layout_plays_no_part (structural : rule.equivalence = .structural)
    (silent : NoDirective file.content name) (silent' : NoDirective file'.content name)
    (same : source.bare = source'.bare) :
    List.Forall₂ (SaidAlike file file' source source') (rule.check file source)
      (rule.check file' source') := by
  have bodies : (source.functions.filterMap Function.body).map Block.bare =
      (source'.functions.filterMap Function.body).map Block.bare := by
    rw [← bodies_bare, ← bodies_bare, same]
  rw [check_eq, check_eq]
  apply List.rel_flatMap (paired_of_map_eq bodies)
  rintro body body' ⟨equal, n, declared, declared'⟩
  exact body_said_alike rule structural silent silent' declared declared' equal

end TwoRuns

/-- A function with a switch over options that begins at an offset. -/
def laidOut (start : Nat) : SourceFile :=
  let options : List Expr := [optionOf "Timeout" (start + 9), optionOf "Retries" (start + 40)]
  let stmt : Stmt := .switch [.mk (some options) [] .zero] ⟨start, start + 60, 2, start⟩
  ⟨[.function ⟨"f", some (.mk [stmt] .zero), .zero⟩]⟩

/-- A comment that allows the findings of another rule. -/
def forOthers : String := "// chainlint: allow(other)"

theorem no_directive_for_others : NoDirective forOthers name := by
  intro line member d given
  have lines : Text.lines forOthers.toList = [forOthers.toList] := by decide
  have parsed : Directive.parse forOthers.toList = some ⟨["other"], none⟩ := by decide
  rw [lines] at member
  obtain rfl := List.mem_singleton.mp member
  rw [parsed] at given
  obtain rfl := Option.some.inj given
  decide

theorem layout_plays_no_part_options :
    NoDirective forOthers name ∧ NoDirective "" name ∧ (laidOut 5).bare = (laidOut 60).bare ∧
      List.Forall₂ (SaidAlike ⟨forOthers, "a.go"⟩ ⟨"", "b.go"⟩ (laidOut 5) (laidOut 60))
        (check {} ⟨forOthers, "a.go"⟩ (laidOut 5)) (check {} ⟨"", "b.go"⟩ (laidOut 60)) := by
  have nothing : NoDirective "" name := fun line member => by cases member
  refine ⟨no_directive_for_others, nothing, rfl, ?_⟩
  exact layout_plays_no_part {} (laidOut 5) (laidOut 60) rfl no_directive_for_others nothing rfl

end LongChain

end SwitchLint
