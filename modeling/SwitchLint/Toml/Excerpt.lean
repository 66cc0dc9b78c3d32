import SwitchLint.Toml.Scanning

/-!
Error messages that show the line of the text where something is wrong, with carets under the place.
-/

namespace SwitchLint.Toml

/-- The characters before a byte offset and those from there on. -/
def splitAtByte : Nat → List Char → List Char × List Char
  | _, [] => ([], [])
  | 0, cs => ([], cs)
  | n + 1, c :: cs =>
    let (before, after) := splitAtByte (n + 1 - c.utf8Size) cs
    (c :: before, after)

/-- Line and column of a byte offset, both from zero. Columns count characters; the end of the text is
one column after its last character, and before a character of several bytes the column counts bytes. -/
def placeOf (text : List Char) (offset : Nat) : Nat × Nat :=
  let (before, after) := splitAtByte offset text
  let lineOf (cs : List Char) : Nat := cs.count '\n'
  let lineStart (cs : List Char) : List Char := (cs.reverse.takeWhile (· ≠ '\n')).reverse
  match after with
  | c :: _ =>
    let line := lineStart before
    (lineOf before, if c.utf8Size = 1 then line.length else byteLength line)
  | [] =>
    let last := before.dropLast
    (lineOf last, if before = [] then offset else (lineStart last).length + 1)

/-- The line of that number, without the line feed that ends it. -/
def lineAt (text : List Char) (n : Nat) : List Char :=
  match n with
  | 0 => text.takeWhile (· ≠ '\n')
  | n + 1 => lineAt ((text.dropWhile (· ≠ '\n')).drop 1) n

/-- A message with the line that an extent begins on. -/
def excerpt (source : String) (extent : Extent) (message : String) : String :=
  let text := source.toList
  let (line, column) := placeOf text extent.start
  let content := lineAt text line
  let number := toString (line + 1)
  let spaces (n : Nat) : String := String.ofList (List.replicate n ' ')
  let width := min (extent.stop - extent.start) (byteLength content - column)
  let carets := String.ofList (List.replicate (max width 1) '^')
  let gutter := spaces (number.length + 1)
  s!"TOML parse error at line {number}, column {column + 1}\n" ++
    gutter ++ "|\n" ++
    number ++ " | " ++ String.ofList content ++ "\n" ++
    gutter ++ "|" ++ spaces (column + 1) ++ carets ++ "\n" ++
    message ++ "\n"

/-- The message of a failure of the syntax, which points at one character. -/
def Failure.report (source : String) (f : Failure) : String :=
  let after := (splitAtByte f.offset source.toList).2
  let size := (after.head?.map Char.utf8Size).getD 0
  excerpt source ⟨f.offset, f.offset + size⟩ f.message

end SwitchLint.Toml
