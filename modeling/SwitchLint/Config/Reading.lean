import SwitchLint.Config.Decoding
import SwitchLint.Files.Tree
import SwitchLint.Toml.Document
import SwitchLint.Toml.Excerpt

/-!
Settings from the text of a file, and what is said where that fails.
-/

namespace SwitchLint

/-- What is wrong with the text of settings. -/
inductive ConfigFault where
  | syntaxFault (failure : Toml.Failure)
  | misfit (misfit : Misfit)

/-- What is said of the fault, with the line of the text where it shows. -/
def ConfigFault.report (source : String) : ConfigFault → String
  | syntaxFault f => f.report source
  | misfit m =>
    match m.extent with
    | some e => Toml.excerpt source e m.mismatch.message
    | none => m.mismatch.message ++ "\n"

/-- Why there are no settings. -/
inductive ConfigError where
  | unreadable (path : String) (fault : FileFault)
  | malformed (source : String) (fault : ConfigFault)

def ConfigError.message : ConfigError → String
  | unreadable path fault => s!"Failed to read config file {path}: {fault.message}"
  | malformed source fault => "Failed to parse config: " ++ fault.report source

/-- Reads settings from a TOML text. -/
def Config.parse (source : String) : Except ConfigError Config :=
  match Toml.parse source with
  | .error f => .error (.malformed source (.syntaxFault f))
  | .ok entries =>
    match Config.ofEntries entries with
    | .error m => .error (.malformed source (.misfit m))
    | .ok config => .ok config

end SwitchLint
