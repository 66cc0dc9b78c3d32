/-!
The settings that a project begins with. They say what holds without them.
-/

namespace SwitchLint.CommandLine

/-- The file that the settings are written to. -/
def templateName : String := "chainlint.toml"

def templateLines : List String := [
  "# chainlint configuration",
  "",
  "# Exit with status 1 when a violation at or above this level is found",
  "# fail_on = \x22error\x22",
  "",
  "[analyzer]",
  "# Root directory to analyze (default: current directory)",
  "# root = \x22./pkg\x22",
  "",
  "# Glob patterns to exclude from analysis",
  "exclude = [",
  "    \x22**/vendor/**\x22,",
  "    \x22**/testdata/**\x22,",
  "]",
  "",
  "# Respect .gitignore files",
  "respect_gitignore = true",
  "",
  "[rules.long-chain]",
  "enabled = true",
  "# Override default severity. At \x22error\x22, an allow directive without",
  "# reason=\x22...\x22 is reported as a warning.",
  "# severity = \x22warning\x22",
  "# Longest selector prefix case expressions may share",
  "max_shared_segments = 2",
  "# Also check switches nested in if/for/case bodies",
  "recurse_nested = false"]

def template : String := String.join (templateLines.map fun l => l ++ "\n")

end SwitchLint.CommandLine
