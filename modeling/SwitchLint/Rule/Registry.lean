import SwitchLint.Rule.LongChain

/-!
The rules that come with the program.
-/

namespace SwitchLint.Rule

/-- All rules with their default settings. -/
def all : List Rule := [({} : LongChain).toRule]

/-- The rules that the project's settings enable, with the options that they give. -/
def configured (config : Config) : List Rule :=
  if config.isEnabled LongChain.name then
    match config.rule? LongChain.name with
    | some c => [(({} : LongChain).configure c).toRule]
    | none => [({} : LongChain).toRule]
  else []

end SwitchLint.Rule
