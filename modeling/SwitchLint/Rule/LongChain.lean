import SwitchLint.Config.Basic
import SwitchLint.Rule.Basic
import SwitchLint.Rule.Directive
import SwitchLint.Syntax.Chain
import SwitchLint.Syntax.Equivalence

/-!
The rule against switches whose cases all repeat a long chain of selectors:

    switch v {
    case cfg.Srv.Opts.Timeout, cfg.Srv.Opts.Retries:
    case cfg.Srv.Opts.Backoff:
    }

Every case walks `cfg.Srv.Opts` again; a local variable would shorten them all. The expressions of all
clauses but the default are taken apart into chains, and the longest prefix that all chains share is
reported if it has more segments than the settings accept.
-/

namespace SwitchLint

/-- The settings of the rule. -/
structure LongChain where
  /-- Decides which segments count as the same. -/
  equivalence : Equivalence := .structural
  /-- The longest prefix that is accepted. -/
  maxSharedSegments : Nat := 2
  /-- Are switches inside other statements looked at, too? -/
  recurseNested : Bool := false
  severity : Severity := .warning

namespace LongChain

def name : String := "long-chain"

def code : String := "CL001"

def description : String := "Flags switch cases repeating a long selector chain"

/-! ### Settings -/

/-- The threshold that an option sets: an integer that is not negative. -/
def thresholdOf : Toml → Option Nat
  | .integer (.ofNat n) => some n
  | _ => none

/-- Takes over what the settings of the project say. An option of another type is passed over. -/
def configure (rule : LongChain) (config : RuleConfig) : LongChain where
  equivalence := rule.equivalence
  maxSharedSegments :=
    ((config.option? "max_shared_segments").bind thresholdOf).getD rule.maxSharedSegments
  recurseNested :=
    ((config.option? "recurse_nested").bind Toml.asBoolean).getD rule.recurseNested
  severity := config.severity.getD rule.severity

/-- A change to the settings. -/
inductive Adjustment where
  | maxSharedSegments (max : Nat)
  | recurseNested (recurse : Bool)
  | severity (severity : Severity)
  | equivalence (equivalence : Equivalence)
  | configure (config : RuleConfig)

def adjust (rule : LongChain) : Adjustment → LongChain
  | .maxSharedSegments max => { rule with maxSharedSegments := max }
  | .recurseNested recurse => { rule with recurseNested := recurse }
  | .severity severity => { rule with severity }
  | .equivalence equivalence => { rule with equivalence }
  | .configure config => rule.configure config

/-- A severity as settings are shown. -/
def severityLabel : Severity → String
  | .info => "Info"
  | .warning => "Warning"
  | .error => "Error"

/-- All settings on one line. -/
def summary (rule : LongChain) : String :=
  s!"LongChain \x7b equivalence: {rule.equivalence.name}, " ++
    s!"max_shared_segments: {rule.maxSharedSegments}, recurse_nested: {rule.recurseNested}, " ++
    s!"severity: {severityLabel rule.severity} \x7d"

/-! ### Detection -/

/-- The prefix of the first chain that all the others share. -/
def sharedByAll (holds : Expr → Expr → Bool) (first : List Expr) (others : List (List Expr)) :
    List Expr :=
  others.foldl (sharedPrefix holds) first

/-- The prefix that the cases of a switch share, if it is long enough to be reported. A single case
repeats nothing. -/
def scan (rule : LongChain) (clauses : List Clause) : Option (List Expr) :=
  match (caseExprs clauses).map Expr.chain with
  | first :: second :: others =>
    let shared := sharedByAll rule.equivalence.holds first (second :: others)
    if rule.maxSharedSegments < shared.length then some shared else none
  | _ => none

/-! ### Findings -/

def message (chain : String) : String :=
  s!"Expression chain {chain} repeated multiple times consider assigning it to local variable"

def advice (chain : String) : String :=
  s!"Assign \x60{chain}\x60 to a local variable before the switch and select from it in each case"

/-- The finding that a switch repeats a chain. -/
def finding (rule : LongChain) (location : Location) (chain : String) : Violation where
  code := code
  rule := name
  severity := rule.severity
  location
  message := message chain
  suggestion := some (advice chain)

/-- The notice that a comment allows a finding without the reason that it owes. -/
def missingReason (location : Location) : Violation where
  code := code
  rule := name
  severity := .warning
  location
  message := s!"Allow directive for '{name}' is missing required reason"
  suggestion := some "Add reason=\x22...\x22 to explain why this exception is necessary"

/-- Must a comment that allows a finding give a reason? Only if findings are errors. -/
def requiresReason (rule : LongChain) : Bool := rule.severity == .error

/-! ### The walk over a file -/

/-- Adds what is to be said of a switch with a long prefix, given what the comments allow. -/
def report (rule : LongChain) (file : FileContext) (found : List Violation) (span : Span)
    (shared : List Expr) : List Violation :=
  let location := Location.ofSpan file.path span
  let allowance := Allowance.check file.content span.line name
  if allowance.isAllowed then
    if rule.requiresReason && allowance.reason.isNone then found ++ [missingReason location]
    else found
  else found ++ [rule.finding location (chainText shared)]

/-- Adds what is to be said of the statement itself. -/
def inspect (rule : LongChain) (file : FileContext) (found : List Violation) :
    Stmt → List Violation
  | .switch clauses span =>
    match rule.scan clauses with
    | some shared => rule.report file found span shared
    | none => found
  | _ => found

/-- Visits a statement and then, if nested switches count, every statement one level further in. -/
def visitStmt (rule : LongChain) (file : FileContext) (found : List Violation) (stmt : Stmt) :
    List Violation :=
  let found := rule.inspect file found stmt
  if rule.recurseNested then
    stmt.nested.attach.foldl (fun found ⟨s, _⟩ => visitStmt rule file found s) found
  else found
termination_by sizeOf stmt
decreasing_by exact Stmt.sizeOf_nested ‹_›

/-- Visits the body of a function. An external function has none. -/
def visitFunction (rule : LongChain) (file : FileContext) (found : List Violation) (f : Function) :
    List Violation :=
  match f.body with
  | some body => body.stmts.foldl (rule.visitStmt file) found
  | none => found

def check (rule : LongChain) (file : FileContext) (source : SourceFile) : List Violation :=
  source.functions.foldl (rule.visitFunction file) []

def toRule (rule : LongChain) : Rule where
  name := name
  code := code
  description := description
  severity := rule.severity
  check := rule.check

end LongChain

end SwitchLint
