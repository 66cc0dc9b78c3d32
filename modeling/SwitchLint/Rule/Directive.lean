import SwitchLint.Text.Lines

/-!
Comments that allow a finding, on the line of the finding or on the line before it:

    // chainlint: allow(long-chain) reason="generated dispatch table"

The names of rules stand between commas, `all` stands for every rule, and the reason may be left out.
Code may precede the comment.
-/

namespace SwitchLint

/-- A directive: the rules that it allows and why. -/
structure Directive where
  rules : List String
  reason : Option String
  deriving DecidableEq, Repr

namespace Directive

open Text

/-- The names between the commas, without blanks around them; empty ones do not count. -/
def parseRules (cs : List Char) : List String :=
  (((split ',' cs).map trim).filter (· ≠ [])).map String.ofList

/-- The quoted text after `reason=`. -/
def parseReason (cs : List Char) : Option String := do
  let rest ← after? "reason=".toList (trim cs)
  let quoted ← after? ['\x22'] (trim rest)
  let (reason, _) ← cut? ['\x22'] quoted
  pure (String.ofList reason)

/-- The directive on a line, if it carries one. -/
def parse (line : List Char) : Option Directive := do
  let (before, after) ← cut? "chainlint:".toList line
  guard (endsWith "//".toList (trimEnd before))
  let inner ← after? "allow(".toList (trim after)
  let (names, rest) ← cut? [')'] (trim inner)
  let rules := parseRules names
  guard (rules ≠ [])
  pure ⟨rules, parseReason rest⟩

/-- Does the directive apply to the rule? -/
def names (d : Directive) (rule : String) : Bool := d.rules.contains rule || d.rules.contains "all"

end Directive

/-- Whether a finding is allowed, and the reason that is given. -/
inductive Allowance where
  | denied
  | allowed (reason : Option String)
  deriving DecidableEq, Repr

namespace Allowance

def isAllowed : Allowance → Bool
  | allowed _ => true
  | denied => false

def reason : Allowance → Option String
  | allowed reason => reason
  | denied => none

/-- The line of that number; the first has number one. -/
def line? (content : String) : Nat → Option (List Char)
  | 0 => none
  | n + 1 => (Text.lines content.toList)[n]?

/-- The directive on the line, if it applies to the rule. -/
def directive? (content rule : String) (line : Nat) : Option Directive := do
  let d ← Directive.parse (← line? content line)
  if d.names rule then some d else none

/-- Is a finding of the rule on that line allowed? Of two directives that apply, the one on the line
before comes first. -/
def check (content : String) (line : Nat) (rule : String) : Allowance :=
  match directive? content rule (line - 1), directive? content rule line with
  | some d, _ => allowed d.reason
  | none, some d => allowed d.reason
  | none, none => denied

end Allowance

end SwitchLint
