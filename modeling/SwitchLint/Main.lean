import SwitchLint.CommandLine.Program

/-!
The program. It reads the files that a run may look at, runs, and then prints and writes what comes of
the run.
-/

namespace SwitchLint

/-- What stands in a file. Nothing of it is known if it cannot be read. -/
def readContent (path : String) : IO Content := do
  match ← (IO.FS.readBinFile path).toBaseIO with
  | .ok bytes => return .ofBytes bytes
  | .error _ => return .binary []

/-- Reads a directory with all that lies below it. Links are left out. -/
partial def readDirectory (path : String) : IO FileTree := do
  let mut entries := []
  for entry in ← (← IO.FS.realPath path).readDir do
    let type := (← entry.path.symlinkMetadata).type
    if type == .dir then
      entries := (entry.fileName, ← readDirectory entry.path.toString) :: entries
    else if type == .file then
      let content ←
        if CommandLine.mayRead entry.fileName then readContent entry.path.toString
        else pure (.binary [])
      entries := (entry.fileName, .file content) :: entries
  return .directory entries

/-- The names of an absolute path. -/
def namesOf (path : String) : List String :=
  (Path.components path).filterMap fun
    | .normal cs => some (String.ofList cs)
    | _ => none

/-- Where a path leads to, and whether that is a directory; nothing if it leads nowhere. -/
def whereTo (path : String) : IO (Option (List String × Bool)) := do
  match ← (IO.FS.realPath path).toBaseIO with
  | .error _ => return none
  | .ok real => return some (namesOf real.toString, ← real.isDir)

/-- Adds all that an absolute path passes by: its directories with their ignore files, and the file that
it leads to. -/
def readAlong (files : FileTree) (path : String) : IO FileTree := do
  let pieces := Path.pieces path.toList
  let mut files := files
  for n in [0 : pieces.length + 1] do
    let passed := "/" ++ String.ofList (Path.join (pieces.take n))
    match ← whereTo passed with
    | none => pure ()
    | some (names, false) => files := files.graft names (.file (← readContent passed))
    | some (names, true) =>
      if (files.node? names).isNone then files := files.graft names .empty
      for file in Ignore.fileNames true do
        if let some (found, false) ← whereTo (file.foldl Path.append passed) then
          files := files.graft found (.file (← readContent (file.foldl Path.append passed)))
  return files

/-- Reads the files that a run may look at. -/
def readWorkspace (globalDirectory : Option String) (args : List String) : IO Workspace := do
  let directory := (← IO.currentDir).toString
  let mut files ← readAlong .empty directory
  if let .ok command := CommandLine.parse args then
    if let some path := CommandLine.checkedPath? command then
      files ← readAlong files (Path.append directory path)
      if let some (names, true) ← whereTo path then
        files := files.graft names (← readDirectory path)
    for path in CommandLine.settingsPaths globalDirectory command do
      files ← readAlong files (Path.append directory path)
  return ⟨files, directory⟩

end SwitchLint

open SwitchLint in
def main (args : List String) : IO UInt32 := do
  let globalDirectory := ConfigSource.globalDirectory (← IO.getEnv "CHAINLINT_CONFIG_DIR")
    (← IO.getEnv "HOME")
  let workspace ← readWorkspace globalDirectory args
  let outcome := CommandLine.run ⟨workspace, globalDirectory⟩ args
  (← IO.getStdout).putStr outcome.stdout
  (← IO.getStderr).putStr outcome.stderr
  for name in outcome.written do
    if let .ok text := outcome.workspace.read name then IO.FS.writeFile name text
  return outcome.status.toUInt32
