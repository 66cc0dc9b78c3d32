import SwitchLint.Files.Ignore.Rules

/-!
Finding the files below a root. Ignore files of the root, of the directories below it and of those above
it decide which entries are left out. A root that is a file is taken as it is.
-/

namespace SwitchLint

open Ignore (Level Rules)

/-- Why no files are found. -/
inductive DiscoveryFault where
  | unreachable (path : String) (fault : FileFault)
  /-- Ignore files above the root are wrong; each complaint with the path of its file. -/
  | ignoreFiles (complaints : List (String × Ignore.Complaint))
  deriving DecidableEq, Repr

def DiscoveryFault.message : DiscoveryFault → String
  | unreachable path fault => s!"{path}: IO error for operation on {path}: {fault.message}"
  | ignoreFiles complaints =>
    "\n".intercalate (complaints.map fun (path, c) => s!"{path}: {c.message}")

namespace FileTree

mutual

/-- The files below a directory, each with the names that lead to it. `levels` are the rules of the
directories above, innermost first. -/
def filesBelow (git : Bool) (levels : List Level) : FileTree → List (List String × Content)
  | .file content => [([], content)]
  | .directory es => filesIn git (⟨.ofDirectory git (.directory es), []⟩ :: levels) es

/-- The files of the entries of a directory and below them. -/
def filesIn (git : Bool) (levels : List Level) :
    List (String × FileTree) → List (List String × Content)
  | [] => []
  | (name, t) :: es =>
    (if Ignore.leavesOut levels name t.isDirectory then []
      else (filesBelow git (levels.map (Level.descend name)) t).map fun (names, content) =>
        (name :: names, content)) ++ filesIn git levels es

end

/-- The rules of the directories on the way, innermost first. The names lead on to the directory at
hand. -/
def levelsAbove (git : Bool) (t : FileTree) : List String → List Level
  | [] => []
  | name :: names =>
    levelsAbove git ((t.child? name).getD empty) names ++ [⟨.ofDirectory git t, name :: names⟩]

/-- What is wrong with the ignore files of the directories on the way, outermost first. `path` is that of
the outermost directory. -/
def complaintsAbove (git : Bool) (path : String) (t : FileTree) :
    List String → List (String × Ignore.Complaint)
  | [] => []
  | name :: names =>
    (Ignore.complaintsOf git t).map (fun (names, c) => (names.foldl Path.append path, c)) ++
      complaintsAbove git (Path.append path name) ((t.child? name).getD empty) names

/-- The files below the root, each with its path. `git` tells whether the ignore files of version
control count. -/
def discover (git : Bool) (t : FileTree) (root : String) :
    Except DiscoveryFault (List (String × Content)) :=
  match t.names root with
  | .error fault => .error (.unreachable root fault)
  | .ok names =>
    match t.node? names with
    | none => .error (.unreachable root .missing)
    | some (.file content) => .ok [(root, content)]
    | some top =>
      match complaintsAbove git "/" t names with
      | [] =>
        .ok ((top.filesBelow git (levelsAbove git t names)).map fun (below, content) =>
          (below.foldl Path.append root, content))
      | complaints => .error (.ignoreFiles complaints)

end FileTree

end SwitchLint
