import SwitchLint.Config.Reading
import SwitchLint.Files.Tree

/-!
Where the settings of a check come from: a file that is given, the project's own file, the global one,
or nowhere.
-/

namespace SwitchLint

inductive ConfigSource where
  /-- A file that is given; whether it exists does not matter. -/
  | explicit (path : String)
  | project (path : String)
  | global (path : String)
  | default
  deriving DecidableEq, Repr

namespace ConfigSource

def path? : ConfigSource → Option String
  | explicit path => some path
  | project path => some path
  | global path => some path
  | default => none

def isGlobal : ConfigSource → Bool
  | global _ => true
  | _ => false

/-- The names of a project's own file; the first that is there counts. -/
def projectNames : List String := ["chainlint.toml", ".chainlint.toml"]

/-- The name of the global file in its directory. -/
def globalName : String := "config.toml"

/-- The global directory: one set for the purpose, else one in the home directory. -/
def globalDirectory (set home : Option String) : Option String :=
  set.or (home.map (Path.append · ".chainlint"))

/-- Finds the settings for a check of `project`. -/
def resolve (w : Workspace) (project : String) (given globalDirectory : Option String) :
    ConfigSource :=
  match given with
  | some path => explicit path
  | none =>
    match (projectNames.map (Path.append project)).find? w.isFile with
    | some path => .project path
    | none =>
      match (globalDirectory.map (Path.append · globalName)).filter w.isFile with
      | some path => .global path
      | none => default

end ConfigSource

namespace Config

/-- Reads settings from a file. -/
def load (w : Workspace) (path : String) : Except ConfigError Config :=
  match w.read path with
  | .ok text => parse text
  | .error fault => .error (.unreadable path fault)

/-- The settings from a source; without one, nothing is set. -/
def ofSource (w : Workspace) (source : ConfigSource) : Except ConfigError Config :=
  match source.path? with
  | some path => load w path
  | none => .ok {}

end Config

end SwitchLint
