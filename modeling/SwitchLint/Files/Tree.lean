import SwitchLint.Path.Basic

/-!
Files and directories as a value: what a path leads to, and what stands in a file.
-/

namespace SwitchLint

/-- What a file holds. -/
inductive Content where
  | text (s : String)
  /-- Bytes that are no UTF-8 text. -/
  | binary (bytes : List UInt8)
  deriving DecidableEq, Repr, Inhabited

/-- A file, or a directory with its entries. -/
inductive FileTree where
  | file (content : Content)
  | directory (entries : List (String × FileTree))
  deriving Repr, Inhabited

/-- Why the file that a path names cannot be read or written. -/
inductive FileFault where
  | missing
  | notDirectory
  | isDirectory
  | notText
  deriving DecidableEq, Repr

def FileFault.message : FileFault → String
  | missing => "No such file or directory (os error 2)"
  | notDirectory => "Not a directory (os error 20)"
  | isDirectory => "Is a directory (os error 21)"
  | notText => "stream did not contain valid UTF-8"

/-- The text of a file. -/
def Content.toText : Content → Except FileFault String
  | text s => .ok s
  | binary _ => .error .notText

/-- What the bytes of a file are. -/
def Content.ofBytes (bytes : ByteArray) : Content :=
  match String.fromUTF8? bytes with
  | some s => text s
  | none => binary bytes.toList

namespace FileTree

def empty : FileTree := directory []

def isDirectory : FileTree → Bool
  | file _ => false
  | directory _ => true

def entries : FileTree → List (String × FileTree)
  | file _ => []
  | directory es => es

def child? (t : FileTree) (name : String) : Option FileTree := t.entries.lookup name

/-- What the names lead to, one directory after the other. -/
def node? (t : FileTree) : List String → Option FileTree
  | [] => some t
  | name :: names => (t.child? name).bind fun c => node? c names

/-- The entries with `t` under the name. -/
def setEntry (name : String) (t : FileTree) : List (String × FileTree) → List (String × FileTree)
  | [] => [(name, t)]
  | (n, old) :: es => if n = name then (n, t) :: es else (n, old) :: setEntry name t es

/-- The tree with `new` where the names lead to. Directories on the way are made as needed. -/
def graft (t : FileTree) : (names : List String) → (new : FileTree) → FileTree
  | [], new => new
  | name :: names, new =>
    directory (setEntry name (graft ((t.child? name).getD empty) names new) t.entries)

/-- The tree without what the names lead to. -/
def prune (t : FileTree) : (names : List String) → FileTree
  | [] => t
  | [name] => directory (t.entries.filter (·.1 ≠ name))
  | name :: names =>
    match t.child? name with
    | some c => directory (setEntry name (prune c names) t.entries)
    | none => t

/-- One piece of a path, read in the directory that `names` lead to. -/
def enter (t : FileTree) (names : List String) (piece : List Char) :
    Except FileFault (List String) :=
  match t.node? names with
  | some (.directory es) =>
    match Path.componentOf piece with
    | some (.normal cs) =>
      let name := String.ofList cs
      if (es.lookup name).isSome then .ok (names ++ [name]) else .error .missing
    | some .parent => .ok names.dropLast
    | _ => .ok names
  | some (.file _) => .error .notDirectory
  | none => .error .missing

/-- The names that an absolute path stands for. -/
def names (t : FileTree) (path : String) : Except FileFault (List String) :=
  if path = "" then .error .missing else (Path.pieces path.toList).foldlM t.enter []

end FileTree

/-- All files below `/`, and the directory in which a program works. -/
structure Workspace where
  files : FileTree
  directory : String
  deriving Repr, Inhabited

namespace Workspace

/-- The path as it is read from `/`. -/
def absolute (w : Workspace) (path : String) : String := Path.append w.directory path

/-- The names that a path stands for. The empty path stands for nothing. -/
def names (w : Workspace) (path : String) : Except FileFault (List String) :=
  if path = "" then .error .missing else w.files.names (w.absolute path)

def node? (w : Workspace) (path : String) : Option FileTree :=
  match w.names path with
  | .ok names => w.files.node? names
  | .error _ => none

/-- Does the path lead to a file? -/
def isFile (w : Workspace) (path : String) : Bool :=
  match w.node? path with
  | some (.file _) => true
  | _ => false

/-- Reads the text of a file. -/
def read (w : Workspace) (path : String) : Except FileFault String := do
  match w.files.node? (← w.names path) with
  | some (.file content) => content.toText
  | some (.directory _) => .error .isDirectory
  | none => .error .missing

/-- The workspace with that file in the working directory. -/
def write (w : Workspace) (name text : String) : Except FileFault Workspace := do
  let names ← w.files.names w.directory
  match w.files.node? (names ++ [name]) with
  | some (.directory _) => .error .isDirectory
  | _ => pure { w with files := w.files.graft (names ++ [name]) (.file (.text text)) }

end Workspace

end SwitchLint
