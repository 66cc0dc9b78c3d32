import SwitchLint.Proofs.CaseExpressions
import SwitchLint.Proofs.Cutting
import SwitchLint.Proofs.EffectiveSeverity
import SwitchLint.Proofs.LineFeeds
import SwitchLint.Proofs.Scanning
import SwitchLint.Report.Format

/-!
Findings on one line. What is reported of an accepted source is one line unless a string or a rune in the
shared prefix goes over a line break; findings of one line are shown on a line each.
-/

namespace SwitchLint

/-! ### Texts without line feeds -/

namespace Text

theorem unbroken_number (n : Nat) : '\n' ∉ (toString n).toList := by
  intro feed
  rw [Nat.toString_eq_repr, Nat.toList_repr] at feed
  have digit := Nat.isDigit_of_mem_toDigits (by decide) (by decide) feed
  cases digit

end Text

/-- Neither the message nor the advice has a line feed. -/
structure Violation.Unbroken (v : Violation) : Prop where
  message : '\n' ∉ v.message.toList
  suggestion : ∀ s ∈ v.suggestion, '\n' ∉ s.toList

namespace Location

theorem text_unbroken {l : Location} (named : '\n' ∉ l.file.toList) : '\n' ∉ l.text.toList := by
  have whole : l.text = l.file ++ ":" ++ toString l.line ++ ":" ++ toString l.column := rfl
  have colon : '\n' ∉ ":".toList := by decide
  simp only [whole, String.toList_append, List.mem_append, not_or]
  exact ⟨⟨⟨⟨named, colon⟩, Text.unbroken_number _⟩, colon⟩, Text.unbroken_number _⟩

end Location

theorem Violation.line_unbroken {v : Violation} (unbroken : v.Unbroken)
    (named : '\n' ∉ v.location.file.toList) (coded : '\n' ∉ v.code.toList) :
    '\n' ∉ v.line.toList := by
  have whole : v.line =
      v.location.text ++ ": " ++ v.severity.name ++ " [" ++ v.code ++ "] " ++ v.message := rfl
  have severity : '\n' ∉ v.severity.name.toList := by cases v.severity <;> decide
  simp only [whole, String.toList_append, List.mem_append, not_or]
  exact ⟨⟨⟨⟨⟨⟨Location.text_unbroken named, by decide⟩, severity⟩, by decide⟩, coded⟩, by decide⟩,
    unbroken.message⟩

theorem Violation.feed_in_line {v : Violation} (feed : '\n' ∈ v.message.toList) :
    '\n' ∈ v.line.toList := by
  have whole : v.line =
      v.location.text ++ ": " ++ v.severity.name ++ " [" ++ v.code ++ "] " ++ v.message := rfl
  rw [whole, String.toList_append]
  exact List.mem_append_right _ feed

/-- Findings are shown on a line each exactly if the text of none has a line feed. -/
theorem Report.compact_lines_iff (r : Report) :
    Text.split '\n' r.renderCompact.toList = r.violations.map (·.line.toList) ++ [[]] ↔
      ∀ v ∈ r.violations, '\n' ∉ v.line.toList := by
  constructor
  · intro shown v hv
    have piece : v.line.toList ∈ Text.split '\n' r.renderCompact.toList := by
      rw [shown]
      exact List.mem_append_left _ (List.mem_map_of_mem hv)
    exact Text.not_mem_of_mem_split piece
  · intro unbroken
    unfold renderCompact
    generalize r.violations = vs at unbroken
    induction vs with
    | nil => rfl
    | cons v vs ih =>
      obtain ⟨head, tail⟩ := List.forall_mem_cons.mp unbroken
      have feed : "\n".toList = ['\n'] := rfl
      rw [List.map_cons, String.join_cons, String.toList_append, String.toList_append, feed,
        List.append_assoc, List.singleton_append, Text.split_append_mark, Text.split_of_not_mem head,
        ih tail]
      rfl

namespace LongChain

/-! ### What the rule says -/

theorem feed_in_chainText_iff {shared : List Expr} (plain : ∀ e ∈ shared, e.Plain) :
    '\n' ∈ (chainText shared).toList ↔ ¬ ∀ e ∈ shared, e.Unbroken := by
  have dot : '\n' ∉ ".".toList := by decide
  have segment (e : Expr) (he : e ∈ shared) : '\n' ∈ e.text.toList ↔ ¬ e.Unbroken := by
    rw [Expr.text, String.toList_ofList, Expr.feed_in_chars_iff (plain e he), Expr.Unbroken]
    push Not
    rfl
  rw [chainText, String.toList_intercalate, Text.mem_intercalate dot]
  simp only [List.mem_map, exists_exists_and_eq_and]
  push Not
  exact exists_congr fun e => and_congr_right fun he => segment e he

theorem feed_in_message_iff (chain : String) :
    '\n' ∈ (message chain).toList ↔ '\n' ∈ chain.toList := by
  have whole : message chain = "Expression chain " ++ chain ++
      " repeated multiple times consider assigning it to local variable" := rfl
  have before : '\n' ∉ "Expression chain ".toList := by decide
  have behind : '\n' ∉ " repeated multiple times consider assigning it to local variable".toList := by
    decide
  simp only [whole, String.toList_append, List.mem_append, before, behind, false_or, or_false]

theorem feed_in_advice_iff (chain : String) :
    '\n' ∈ (advice chain).toList ↔ '\n' ∈ chain.toList := by
  have whole : advice chain = "Assign \x60" ++ chain ++
      "\x60 to a local variable before the switch and select from it in each case" := rfl
  have before : '\n' ∉ "Assign \x60".toList := by decide
  have behind :
      '\n' ∉ "\x60 to a local variable before the switch and select from it in each case".toList := by
    decide
  simp only [whole, String.toList_append, List.mem_append, before, behind, false_or, or_false]

theorem finding_unbroken_iff (rule : LongChain) (location : Location) (chain : String) :
    (rule.finding location chain).Unbroken ↔ '\n' ∉ chain.toList := by
  constructor
  · intro unbroken feed
    exact unbroken.message ((feed_in_message_iff chain).mpr feed)
  · intro unbroken
    refine ⟨fun feed => unbroken ((feed_in_message_iff chain).mp feed), ?_⟩
    rintro _ ⟨⟩ feed
    exact unbroken ((feed_in_advice_iff chain).mp feed)

theorem notice_unbroken (location : Location) : (missingReason location).Unbroken := by
  constructor
  · exact (by decide : '\n' ∉ (missingReason default).message.toList)
  · rintro _ ⟨⟩
    decide

end LongChain

/-! ### The cases of a switch that is read -/

namespace LongChain

theorem mem_switches_of_visited {rule : LongChain} {body : Block} {address : List Nat}
    {clauses : List Clause} {span : Span} (visited : (address, clauses, span) ∈ rule.visited body) :
    (clauses, span) ∈ Stmt.switches body.stmts := by
  obtain ⟨⟨address', s⟩, looked, found⟩ := List.mem_filterMap.mp visited
  obtain ⟨rfl, rfl⟩ := Prod.mk.inj ((switchAt_iff _ _ _ _).mp found)
  refine List.mem_filterMap.mpr ⟨.switch clauses span, ?_, rfl⟩
  have member := List.mem_map_of_mem (f := Prod.snd) looked
  rw [Stmt.numbered_stmts] at member
  obtain ⟨t, ht, seen⟩ := List.mem_flatMap.mp member
  rw [Stmt.preorderList_eq]
  refine List.mem_flatMap.mpr ⟨t, ht, ?_⟩
  unfold look at seen
  split at seen
  · rwa [Stmt.located_stmts] at seen
  · obtain rfl := List.mem_singleton.mp seen
    rw [Stmt.preorder_eq]
    exact List.mem_cons_self

theorem cases_plain {source : String} {file : SourceFile} (read : Go.parse source = .ok file)
    {body : Block} (declared : body ∈ file.functions.filterMap Function.body) {rule : LongChain}
    {address : List Nat} {clauses : List Clause} {span : Span}
    (visited : (address, clauses, span) ∈ rule.visited body) : ∀ e ∈ caseExprs clauses, e.Plain := by
  intro e he
  obtain ⟨t, concrete, c, hc, u, sub, legible, rfl⟩ :=
    Go.caseExpr_of_parse read declared (mem_switches_of_visited visited) he
  exact Go.Tree.toExpr_plain ((Go.parseTree_flat concrete c hc).mono sub) legible.solid

theorem scan_plain {rule : LongChain} {clauses : List Clause} {shared : List Expr}
    (plain : ∀ e ∈ caseExprs clauses, e.Plain) (reported : rule.scan clauses = some shared) :
    ∀ e ∈ shared, e.Plain := by
  obtain ⟨-, -, rfl⟩ := (scan_iff rule clauses shared).mp reported
  unfold prefixOf
  cases cases_eq : caseExprs clauses with
  | nil => simp
  | cons e es =>
    intro s hs
    have initial := shared_by_all_initial rule.equivalence.holds e.chain (es.map Expr.chain)
    exact Expr.plain_chain (plain e (by simp [cases_eq])) s (initial.subset hs)

/-! ### What is reported -/

theorem outcome_cases {rule : LongChain} {context : FileContext} {clauses : List Clause} {span : Span}
    {shared : List Expr} {v : Violation} (scanned : rule.scan clauses = some shared)
    (member : v ∈ rule.outcome context clauses span) :
    v = rule.finding (.ofSpan context.path span) (chainText shared) ∨
      v = missingReason (.ofSpan context.path span) := by
  unfold outcome at member
  rw [scanned] at member
  split at member
  · contradiction
  · rename_i same _
    obtain rfl := Option.some.inj same
    exact .inl (List.mem_singleton.mp member)
  · cases member
  · split at member
    · exact .inr (List.mem_singleton.mp member)
    · cases member

section

variable {rule : LongChain} {source path : String} {file : SourceFile} {v : Violation}
  {shared : List Expr}

theorem unbroken_iff (read : Go.parse source = .ok file)
    (speaks : rule.Speaks ⟨source, path⟩ file v shared) :
    v.Unbroken ↔ IsNotice v ∨ ∀ e ∈ shared, e.Unbroken := by
  obtain ⟨body, declared, address, clauses, span, visited, scanned, member⟩ := speaks
  have feed := feed_in_chainText_iff (scan_plain (cases_plain read declared visited) scanned)
  rcases outcome_cases scanned member with rfl | rfl
  · rw [finding_unbroken_iff, feed, not_not]
    have finding : ¬ IsNotice (rule.finding (.ofSpan path span) (chainText shared)) :=
      message_ne_notice _ _
    simp [finding]
  · exact iff_of_true (notice_unbroken _) (.inl rfl)

/-- The advice has no line feed that the message does not have. -/
theorem line_unbroken_iff (named : '\n' ∉ path.toList)
    (speaks : rule.Speaks ⟨source, path⟩ file v shared) :
    '\n' ∉ v.line.toList ↔ v.Unbroken := by
  obtain ⟨body, declared, address, clauses, span, visited, scanned, member⟩ := speaks
  constructor
  · intro unbroken
    rcases outcome_cases scanned member with rfl | rfl
    · rw [finding_unbroken_iff, ← feed_in_message_iff]
      exact fun feed => unbroken (Violation.feed_in_line feed)
    · exact notice_unbroken _
  · intro unbroken
    obtain ⟨coded, -, place⟩ := outcome_fields _ _ _ _ v member
    refine Violation.line_unbroken unbroken ?_ ?_
    · rw [place]
      exact named
    · rw [coded]
      decide

end

/-- The rule returns it, under some settings, for an accepted source in a file whose name has no line
feed. -/
inductive Reported (v : Violation) : Prop
  | mk {rule : LongChain} {source path : String} {file : SourceFile} :
      Go.parse source = .ok file → '\n' ∉ path.toList → v ∈ rule.check ⟨source, path⟩ file → Reported v

/-- Whatever the rule returns for an accepted source is said of a switch in it. It is one line exactly if
it is a notice or no string and no rune in the prefix that the cases share goes over a line break. A
report of what the rule returns is shown with one line for each exactly if each is one line. -/
theorem reported_one_line (r : Report) (reported : ∀ v ∈ r.violations, Reported v) :
    (∀ v ∈ r.violations, ∀ (rule : LongChain) source path file, Go.parse source = .ok file →
      v ∈ rule.check ⟨source, path⟩ file → ∃ shared, rule.Speaks ⟨source, path⟩ file v shared ∧
        (v.Unbroken ↔ IsNotice v ∨ ∀ e ∈ shared, e.Unbroken)) ∧
    (Text.split '\n' r.renderCompact.toList = r.violations.map (·.line.toList) ++ [[]] ↔
      ∀ v ∈ r.violations, v.Unbroken) := by
  constructor
  · intro v _ rule source path file read member
    obtain ⟨shared, speaks⟩ := (rule.mem_check_iff ⟨source, path⟩ file v).mp member
    exact ⟨shared, speaks, unbroken_iff read speaks⟩
  · have lines (v : Violation) (hv : v ∈ r.violations) : '\n' ∉ v.line.toList ↔ v.Unbroken := by
      obtain @⟨rule, source, path, file, _, named, member⟩ := reported v hv
      obtain ⟨shared, speaks⟩ := (rule.mem_check_iff ⟨source, path⟩ file v).mp member
      exact line_unbroken_iff named speaks
    rw [Report.compact_lines_iff]
    exact forall₂_congr lines

/-- A switch whose cases share `load(text).Opts.Net`. -/
def loading (text : String) : String :=
  "package p\nfunc f() \x7b\n\tswitch v \x7b\n\tcase load(" ++ text ++
    ").Opts.Net.A, load(" ++ text ++ ").Opts.Net.B:\n\t\x7d\n\x7d\n"

def loadingFinding (text : String) : Violation :=
  ({} : LongChain).finding ⟨"a.go", 3, 2, 22, 67⟩ ("load(" ++ text ++ ").Opts.Net")

def oneLineSource : String := loading "\x60a b\x60"

theorem reported_one_line_of_raw_string :
    ∃ file shared, Go.parse oneLineSource = .ok file ∧
      ({} : LongChain).Speaks ⟨oneLineSource, "a.go"⟩ file (loadingFinding "\x60a b\x60") shared ∧
      (∀ e ∈ shared, e.Unbroken) ∧
      Text.split '\n' (Report.renderCompact ⟨[loadingFinding "\x60a b\x60"], 1⟩).toList =
        [(loadingFinding "\x60a b\x60").line.toList, []] := by
  have run : (Go.parse oneLineSource).toOption.map (fun file =>
      ({} : LongChain).check ⟨oneLineSource, "a.go"⟩ file) =
        some [loadingFinding "\x60a b\x60"] := by decide +kernel
  obtain ⟨file, read, found⟩ := Go.parse_of_run run
  have member : loadingFinding "\x60a b\x60" ∈ ({} : LongChain).check ⟨oneLineSource, "a.go"⟩ file := by
    rw [found]
    exact List.mem_singleton_self _
  have unbroken : (loadingFinding "\x60a b\x60").Unbroken :=
    (finding_unbroken_iff _ _ _).mpr (by decide)
  obtain ⟨exact, shown⟩ := reported_one_line ⟨[loadingFinding "\x60a b\x60"], 1⟩
    (List.forall_mem_singleton.mpr (.mk read (by decide) member))
  obtain ⟨shared, speaks, one⟩ := exact _ List.mem_cons_self _ _ _ _ read member
  refine ⟨file, shared, read, speaks, ?_, shown.mpr (List.forall_mem_singleton.mpr unbroken)⟩
  exact (one.mp unbroken).resolve_left (message_ne_notice _ _)

/-- A raw string that goes over a line break. -/
def twoLineSource : String := loading "\x60a\nb\x60"

/-- Its line feed is in the message, and the one finding is shown on two lines. -/
theorem finding_on_two_lines :
    (∃ file, Go.parse twoLineSource = .ok file ∧
      ({} : LongChain).check ⟨twoLineSource, "a.go"⟩ file = [loadingFinding "\x60a\nb\x60"]) ∧
      ¬ (loadingFinding "\x60a\nb\x60").Unbroken ∧
      (Text.split '\n' (Report.renderCompact ⟨[loadingFinding "\x60a\nb\x60"], 1⟩).toList).length =
        2 + 1 := by
  refine ⟨Go.parse_of_run (by decide +kernel), fun unbroken => ?_, by decide +kernel⟩
  exact (finding_unbroken_iff _ _ _).mp unbroken (by decide)

end LongChain

end SwitchLint
