import SwitchLint.Report.Severity
import SwitchLint.Toml.Value

/-!
Settings of a project: which files are looked at, which rules run and how grave their findings are.
-/

namespace SwitchLint

/-- The settings of one rule. Keys that every rule knows have fields; the others are options. -/
structure RuleConfig where
  enabled : Option Bool := none
  severity : Option Severity := none
  options : List (String × Toml) := []
  deriving Inhabited

namespace RuleConfig

def option? (c : RuleConfig) (key : String) : Option Toml := c.options.lookup key

/-- A boolean option, or `fallback` where it is absent or no boolean. -/
def getBool (c : RuleConfig) (key : String) (fallback : Bool) : Bool :=
  ((c.option? key).bind Toml.asBoolean).getD fallback

/-- An integer option, or `fallback` where it is absent or no integer. -/
def getInt (c : RuleConfig) (key : String) (fallback : Int) : Int :=
  ((c.option? key).bind Toml.asInteger).getD fallback

end RuleConfig

/-- Which files are looked at. -/
structure Scope where
  root : String
  /-- Patterns of paths that are left out. -/
  exclude : List String
  respectGitignore : Bool
  deriving DecidableEq, Repr, Inhabited

/-- Where nothing is said of it: all of the current directory but vendored code and test data. -/
def Scope.default : Scope := ⟨".", ["**/vendor/**", "**/testdata/**"], true⟩

structure Config where
  scope : Scope := .default
  rules : List (String × RuleConfig) := []
  failOn : Option Severity := none
  deriving Inhabited

namespace Config

/-- The settings of a rule, if there are any. -/
def rule? (c : Config) (name : String) : Option RuleConfig := c.rules.lookup name

/-- Does the rule run? It does unless its settings say otherwise. -/
def isEnabled (c : Config) (name : String) : Bool :=
  ((c.rule? name).bind RuleConfig.enabled).getD true

/-- The severity that the settings give to the findings of the rule. -/
def severity? (c : Config) (name : String) : Option Severity :=
  (c.rule? name).bind RuleConfig.severity

/-- The severity at which a check counts as failed. -/
def threshold (c : Config) : Severity := c.failOn.getD .error

end Config

end SwitchLint
