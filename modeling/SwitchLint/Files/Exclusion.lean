import SwitchLint.Files.Glob
import SwitchLint.Path.Basic

/-!
Which files are left out of a check. A relative pattern looks at the path below the root only, so
directories above the root never leave out anything. Besides matching the path, its text without `**`
leaves out every path in which it occurs.
-/

namespace SwitchLint

/-- A pattern of paths, with the text that it was read from. -/
structure Exclusion where
  text : String
  glob : Glob
  deriving DecidableEq, Repr

namespace Exclusion

def parse (text : String) : Except Glob.Fault Exclusion := (Glob.parse text).map (⟨text, ·⟩)

/-- The text without each `**`. -/
def withoutDirectories : List Char → List Char
  | '*' :: '*' :: cs => withoutDirectories cs
  | c :: cs => c :: withoutDirectories cs
  | [] => []

/-- Does the pattern's text occur in the path, apart from each `**`? -/
def occursIn (text path : List Char) : Bool :=
  let part := withoutDirectories text
  !(part = [] || part = ['/']) && (Text.cut? part path).isSome

/-- Does the pattern leave out the file at `path`? -/
def excludes (e : Exclusion) (root path : String) : Bool :=
  let below := Path.relativeTo root path
  e.glob.covers below ||
    if Path.isAbsolute e.text then e.glob.covers path
    else occursIn e.text.toList ('/' :: below.toList)

end Exclusion

/-- Does one of the patterns leave out the file at `path`? -/
def excluded (patterns : List Exclusion) (root path : String) : Bool :=
  patterns.any fun e => e.excludes root path

end SwitchLint
