import SwitchLint.Text.Lines

/-!
Paths, read component by component. Repeated slashes, slashes at the end and `.` count for nothing,
except a `.` at the very beginning; `..` always counts.
-/

namespace SwitchLint

/-- A component of a path. -/
inductive Component where
  /-- The slash of an absolute path. -/
  | root
  /-- A leading `.`. -/
  | here
  /-- `..` -/
  | parent
  | normal (name : List Char)
  deriving DecidableEq, Repr

/-- Components are ordered by kind, names by their characters. -/
def Component.key : Component → List Nat
  | root => [0]
  | here => [1]
  | parent => [2]
  | normal name => 3 :: name.map Char.toNat

namespace Path

/-- What stands before the body of a path: the slash of an absolute path or a leading `.`. -/
def head : List Char → Option Component
  | '/' :: _ => some .root
  | ['.'] => some .here
  | '.' :: '/' :: _ => some .here
  | _ => none

/-- The pieces between the slashes of the body. -/
def pieces (cs : List Char) : List (List Char) :=
  Text.split '/' (if (head cs).isSome then cs.drop 1 else cs)

/-- The component that a piece of the body stands for, if it counts. -/
def componentOf (piece : List Char) : Option Component :=
  if piece = [] ∨ piece = ['.'] then none
  else if piece = ['.', '.'] then some .parent
  else some (.normal piece)

/-- Does the piece count for nothing? -/
def idle (piece : List Char) : Bool := (componentOf piece).isNone

def isAbsolute (path : String) : Bool := head path.toList == some .root

/-- The path as it is read in the directory `base`. An absolute path stays as it is. -/
def append (base path : String) : String :=
  if isAbsolute path || base = "" then path
  else if Text.endsWith ['/'] base.toList then base ++ path
  else base ++ "/" ++ path

/-- The components of a path, in order. -/
def components (path : String) : List Component :=
  (head path.toList).toList ++ (pieces path.toList).filterMap componentOf

/-- The pieces without the idle ones at the end. -/
def trimEnd (ps : List (List Char)) : List (List Char) := (ps.reverse.dropWhile idle).reverse

/-- The pieces after the first `n` that count. -/
def afterCounting : Nat → List (List Char) → List (List Char)
  | 0, ps => ps
  | _ + 1, [] => []
  | n + 1, p :: ps => if idle p then afterCounting (n + 1) ps else afterCounting n ps

/-- The text of pieces with slashes between them. -/
def join (ps : List (List Char)) : List Char := ['/'].intercalate ps

/-- What is left of a path after its first `n` components. -/
def afterComponents (n : Nat) (cs : List Char) : List Char :=
  match n with
  | 0 => cs.take (if (head cs).isSome then 1 else 0) ++ join (trimEnd (pieces cs))
  | n + 1 =>
    let k := if (head cs).isSome then n else n + 1
    join (trimEnd ((afterCounting k (pieces cs)).dropWhile idle))

/-- The path below `base`, if it begins with the components of `base`. -/
def below? (base path : String) : Option String :=
  if (components base).isPrefixOf (components path) then
    some (String.ofList (afterComponents (components base).length path.toList))
  else none

/-- The path as seen from `root`; one that does not lie below it is kept whole. -/
def relativeTo (root path : String) : String := (below? root path).getD path

/-- The name of the file or directory that a path leads to. -/
def fileName? (path : String) : Option (List Char) :=
  match (components path).getLast? with
  | some (.normal name) => some name
  | _ => none

/-- What follows the last dot of a name, unless the name begins with that dot. -/
def extension? (name : List Char) : Option (List Char) :=
  if name.contains '.' then
    let stem := (name.reverse.dropWhile (· ≠ '.')).drop 1
    if stem = [] then none else some (name.reverse.takeWhile (· ≠ '.')).reverse
  else none

/-- Does the path lead to a file with that extension? -/
def hasExtension (extension path : String) : Bool :=
  ((fileName? path).bind extension?) == some extension.toList

/-- The order of paths: component by component. -/
def compare (a b : String) : Ordering :=
  Ord.compare ((components a).map Component.key) ((components b).map Component.key)

end Path

end SwitchLint
