import SwitchLint.Files.Ignore.Pattern
import SwitchLint.Files.Tree
import SwitchLint.Text.Lines

/-!
Ignore files. Each line is a pattern; the last one that matches a path decides about it. A pattern with
a slash, other than at its end, looks at the whole path below the directory of the file, any other at
the last component only. An exclamation mark keeps what the pattern matches, a slash at the end makes it
look at directories only, and lines that begin with `#` are comments.
-/

namespace SwitchLint.Ignore

/-- What a line of an ignore file says. -/
structure Entry where
  pattern : Text.Pattern
  /-- Is what the pattern matches kept, not left out? -/
  keeps : Bool
  directoriesOnly : Bool
  deriving Inhabited

/-- Why a line of an ignore file says nothing. -/
inductive Cause where
  | malformed (pattern : String) (fault : Fault)
  | notText
  deriving DecidableEq, Repr

/-- What is wrong with a line, and its number. -/
structure Complaint where
  line : Nat
  cause : Cause
  deriving DecidableEq, Repr

def Complaint.message (c : Complaint) : String :=
  match c.cause with
  | .malformed pattern fault =>
    s!"line {c.line}: error parsing glob \x27{pattern}\x27: {fault.message}"
  | .notText => s!"line {c.line}: {FileFault.notText.message}"

/-! ### Lines -/

/-- The line without the white space at its end, unless a backslash keeps it. -/
def trimLine (line : List Char) : List Char :=
  if Text.endsWith ['\\', ' '] line then line else Text.trimEnd line

/-- The pattern without what stands before it, whether it keeps what it matches, and whether it is bound
to the directory of the file. -/
def readStart : List Char → List Char × Bool × Bool
  | '\\' :: '!' :: cs => ('!' :: cs, false, false)
  | '\\' :: '#' :: cs => ('#' :: cs, false, false)
  | '!' :: '/' :: cs => (cs, true, true)
  | '!' :: cs => (cs, true, false)
  | '/' :: cs => (cs, false, true)
  | cs => (cs, false, false)

/-- The pattern without a slash at its end, and whether there was one. -/
def readEnd (cs : List Char) : List Char × Bool :=
  if Text.endsWith ['/'] cs then
    let body := cs.dropLast
    (if Text.endsWith ['\\'] body then body.dropLast else body, true)
  else (cs, false)

/-- A pattern that may match below any directory begins with `**`, and one that ends with it does not
match the directory itself. -/
def complete (cs : List Char) (bound : Bool) : List Char :=
  let cs := if bound || cs.contains '/' || cs = ['*', '*'] then cs else '*' :: '*' :: '/' :: cs
  if Text.endsWith ['/', '*', '*'] cs then cs ++ ['/', '*'] else cs

/-- What a line says. Comments and blank lines say nothing. -/
def parseLine (line : List Char) : Except Cause (Option Entry) :=
  let shown := trimLine line
  if line.head? = some '#' ∨ shown = [] then .ok none
  else
    let (cs, keeps, bound) := readStart shown
    let (cs, directoriesOnly) := readEnd cs
    match parsePattern (complete cs bound) with
    | .ok pattern => .ok (some ⟨pattern, keeps, directoriesOnly⟩)
    | .error fault => .error (.malformed (String.ofList shown) fault)

/-- What lines say, the first of them with that number. -/
def parseLines (number : Nat) : List (List Char) → List Entry × List Complaint
  | [] => ([], [])
  | line :: lines =>
    let (entries, complaints) := parseLines (number + 1) lines
    match parseLine line with
    | .ok entry => (entry.toList ++ entries, complaints)
    | .error cause => (entries, ⟨number, cause⟩ :: complaints)

/-! ### Files -/

/-- The bytes between line feeds. -/
def splitBytes : List UInt8 → List (List UInt8)
  | [] => [[]]
  | b :: bs =>
    if b = 10 then [] :: splitBytes bs
    else
      match splitBytes bs with
      | [] => [[b]]
      | p :: ps => (b :: p) :: ps

/-- The lines of a file up to the first that is no text. -/
def linesOf : Content → List (List Char)
  | .text s => Text.lines s.toList
  | .binary bytes =>
    let decoded := (splitBytes bytes).map fun bs => String.fromUTF8? ⟨bs.toArray⟩
    Text.lines (((decoded.takeWhile Option.isSome).filterMap id).flatMap fun s => s.toList ++ ['\n'])

/-- The first line begins after byte order marks. -/
def withoutMarks : List (List Char) → List (List Char)
  | [] => []
  | line :: lines => line.dropWhile (· = '\ufeff') :: lines

/-- What an ignore file says. Nothing is said about a file that cannot be read from its first fault
on, if that is its only one. -/
def parseContent (content : Content) : List Entry × List Complaint :=
  let lines := withoutMarks (linesOf content)
  let (entries, complaints) := parseLines 1 lines
  match content, complaints with
  | .text _, _ => (entries, complaints)
  | .binary _, [] => (entries, [])
  | .binary _, _ => (entries, complaints ++ [⟨lines.length + 1, .notText⟩])

/-! ### Directories -/

/-- The entries of the ignore files of a directory. -/
structure Rules where
  /-- Of `.ignore`. -/
  ignore : List Entry := []
  /-- Of `.gitignore`. -/
  gitignore : List Entry := []
  /-- Of `.git/info/exclude`. -/
  exclude : List Entry := []
  deriving Inhabited

/-- What the file says that the names lead to; nothing if there is none. -/
def parseFile (t : FileTree) (names : List String) : List Entry × List Complaint :=
  match t.node? names with
  | some (.file content) => parseContent content
  | _ => ([], [])

/-- Where the ignore files of a directory stand. -/
def fileNames (git : Bool) : List (List String) :=
  [".ignore"] :: if git then [[".gitignore"], [".git", "info", "exclude"]] else []

/-- The rules of a directory; those of version control only if `git` is set. -/
def Rules.ofDirectory (git : Bool) (t : FileTree) : Rules :=
  let read (names : List String) : List Entry := (parseFile t names).1
  { ignore := read [".ignore"]
    gitignore := if git then read [".gitignore"] else []
    exclude := if git then read [".git", "info", "exclude"] else [] }

/-- What is wrong with the ignore files of a directory, file by file. -/
def complaintsOf (git : Bool) (t : FileTree) : List (List String × Complaint) :=
  (fileNames git).flatMap fun names => (parseFile t names).2.map (names, ·)

/-! ### Decisions -/

inductive Verdict where
  | leftOut
  | kept
  deriving DecidableEq, Repr

/-- What the entries decide about a path below their directory. -/
def verdict? (entries : List Entry) (path : List String) (isDirectory : Bool) : Option Verdict :=
  let text := bytes (['/'].intercalate (path.map String.toList))
  (entries.reverse.find? fun e =>
      (isDirectory || !e.directoriesOnly) && e.pattern.accepts text).map
    fun e => if e.keeps then .kept else .leftOut

/-- The rules of a directory, and the names that lead from it to the directory at hand. -/
structure Level where
  rules : Rules
  below : List String
  deriving Inhabited

namespace Level

/-- The level as it is seen one directory further down. -/
def descend (name : String) (l : Level) : Level := { l with below := l.below ++ [name] }

/-- What one of the ignore files decides about an entry of the directory at hand. -/
def verdict? (l : Level) (file : Rules → List Entry) (name : String) (isDirectory : Bool) :
    Option Verdict :=
  Ignore.verdict? (file l.rules) (l.below ++ [name]) isDirectory

end Level

/-- Is the entry of a directory left out? The innermost directory decides that says anything. What
`.ignore` says comes before what `.gitignore` says. Where nothing is said, hidden entries are left out. -/
def leavesOut (levels : List Level) (name : String) (isDirectory : Bool) : Bool :=
  let said (file : Rules → List Entry) : Option Verdict :=
    levels.findSome? fun l => l.verdict? file name isDirectory
  match ((said Rules.ignore).or (said Rules.gitignore)).or (said Rules.exclude) with
  | some v => v = .leftOut
  | none => name.toList.head? = some '.'

end SwitchLint.Ignore
