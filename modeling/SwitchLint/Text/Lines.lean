import SwitchLint.Text.Blank

/-!
Lines and pieces of a text. A line ends at a line feed, and a carriage return directly before that
belongs to the line's end; any other carriage return is a character of the line.
-/

namespace SwitchLint.Text

/-- The lines of a text, without what ends them. Nothing after the last line feed is no line. -/
def lines : List Char → List (List Char)
  | [] => []
  | '\n' :: cs => [] :: lines cs
  | '\r' :: '\n' :: cs => [] :: lines cs
  | c :: cs =>
    match lines cs with
    | [] => [[c]]
    | l :: ls => (c :: l) :: ls

/-- What follows `start` in a text that begins with it. -/
def after? : (start text : List Char) → Option (List Char)
  | [], text => some text
  | s :: start, c :: text => if s = c then after? start text else none
  | _ :: _, [] => none

/-- What stands before and after the first occurrence of `mark`. -/
def cut? (mark : List Char) : List Char → Option (List Char × List Char)
  | [] => (after? mark []).map ([], ·)
  | c :: text =>
    match after? mark (c :: text) with
    | some rest => some ([], rest)
    | none => (cut? mark text).map fun (before, rest) => (c :: before, rest)

/-- The pieces between the occurrences of a character. -/
def split (mark : Char) : List Char → List (List Char)
  | [] => [[]]
  | c :: text =>
    if c = mark then [] :: split mark text
    else
      match split mark text with
      | [] => [[c]]
      | p :: ps => (c :: p) :: ps

/-- Does the text end in `tail`? -/
def endsWith (tail text : List Char) : Bool := (after? tail.reverse text.reverse).isSome

end SwitchLint.Text
