import SwitchLint.Toml.Date
import SwitchLint.Toml.Item
import SwitchLint.Toml.Text

/-!
TOML documents: keys with values, headers of tables, comments.
-/

namespace SwitchLint.Toml

namespace Grammar

open Scan

/-! ### Keys -/

def simpleKey : Scan String := do
  match ← peek? with
  | some '\x22' => basicString
  | some '\x27' => literalString
  | _ =>
    let first ← one inBareKey
    return String.ofList (first :: (← takeWhile inBareKey))

/-- How deep values and how long dotted keys may be. -/
def depthLimit : Nat := 80

/-- Keys with dots between them. -/
def key : Scan (List Key) :=
  checked
    (label "key" <| separated
      (do
        blanks
        let (name, extent) ← located simpleKey
        blanks
        return ⟨name, extent⟩)
      (char '.'))
    fun keys => if depthLimit ≤ keys.length then .error .tooDeep else .ok keys

/-- The path before the last key, and that key. -/
def splitLast (keys : List Key) : List Key × Key := (keys.dropLast, keys.getLast?.getD default)

/-- The mark between a key and its value. -/
def equals : Scan Unit := wants [.spelled ".", .spelled "="] (char '=')

/-! ### Values -/

/-- What a value that begins like none could have been. -/
def likeString {α : Type} (p : Scan α) : Scan α :=
  wants [.spelled "\x22", .spelled "\x27"] (label "string" p)

/-- Elements between brackets, with commas, line breaks and comments between them. -/
def array (value : Scan Item) : Scan (List Item) := do
  char '['
  let items ← cut do
    if (← peek?) == some ']' then return []
    let element : Scan Item := do
      blankLines (← bound)
      let item ← value
      blankLines (← bound)
      return item
    let items := (← attempt (separated element (char ','))).getD []
    let _ ← attempt (char ',')
    blankLines (← bound)
    return items
  cut (wants [.spelled "]"] (label "array" (char ']')))
  return items

/-- Keys and values between braces, on one line. -/
def inlineEntries (value : Scan Item) : Scan Entries := do
  char '\x7b'
  let pair : Scan (List Key × Key × Item) := do
    let (path, last) := splitLast (← key)
    cut do
      equals
      blanks
      let item ← value
      blanks
      return (path, last, item)
  let entries ← cut <| checked
    (do
      let pairs := (← attempt (separated pair (char ','))).getD []
      blanks
      return pairs)
    inlineTable
  cut (wants [.spelled "\x7d"] (label "inline table" (char '\x7d')))
  return entries

/-- A value that begins with a sign or a digit. -/
def numeric : Scan (Extent → Item) :=
  orElse (do return .datetime (← dateTime)) <|
  orElse (do return .float (← float)) (do return .integer (← integer))

/-- A value, whose parts are read by `inner`. -/
def valueWith (inner : Option (Scan Item)) : Scan Item := do
  let nested (p : Scan Item → Scan (Extent → Item)) : Scan (Extent → Item) := do
    match inner with
    | some value => p value
    | none => refuse .tooDeep (← here)
  let (make, extent) ← located do
    match ← peek? with
    | none => fail
    | some '\x22' => return .string (← string)
    | some '\x27' => return .string (← string)
    | some '[' => nested fun value => do return .array (← array value)
    | some '\x7b' => nested fun value => do
      let entries ← inlineEntries value
      return fun extent => .table { isInline := true, extent := some extent } entries
    | some '_' => wants [.described "leading digit"] do return .integer (← integer)
    | some '.' => wants [.described "leading digit"] do return .float (← float)
    | some 't' => likeString (cut do text "true"; return .boolean true)
    | some 'f' => likeString (cut do text "false"; return .boolean false)
    | some 'i' => likeString do return .float (UInt64.ofNat (← infinity))
    | some 'n' => likeString do return .float (UInt64.ofNat (← notANumber))
    | some c =>
      if c == '+' || c == '-' || isDigit c then numeric else likeString fail
  return make extent

/-- A value whose brackets are nested at most `n` deep. -/
def value : Nat → Scan Item
  | 0 => valueWith none
  | n + 1 => valueWith (some (value n))

/-! ### Lines -/

/-- The end of a line after a value or header. -/
def endOfLine : Scan Unit := wants [.newline, .spelled "#"] lineTrailing

/-- A key and its value, to the end of the line. -/
def pair (d : Draft) : Scan Draft :=
  checked
    (do
      let (path, last) := splitLast (← key)
      cut do
        equals
        blanks
        let item ← value (depthLimit - 1)
        endOfLine
        return (path, last, item))
    fun (path, last, item) => d.addPair path last item

/-- A header in single or double brackets, to the end of the line. -/
def header (d : Draft) : Scan Draft :=
  label "table header" do
    match ← ahead with
    | [_] => fail
    | '[' :: '[' :: _ =>
      checked
        (do
          let (path, extent) ← located do
            text "[["
            let path ← cut key
            wants [.spelled ".", .spelled "]]"] (cut (text "]]"))
            return path
          cut endOfLine
          return (path, extent))
        fun (path, extent) => d.beginArrayTable path extent
    | _ =>
      checked
        (do
          let (path, extent) ← located do
            char '['
            let path ← cut key
            wants [.spelled ".", .spelled "]"] (cut (char ']'))
            return path
          cut endOfLine
          return (path, extent))
        fun (path, extent) => d.beginTable path extent

/-- The lines of a document. -/
def lines : Nat → Draft → Scan Draft
  | 0, d => pure d
  | fuel + 1, d => do
    match ← peek? with
    | none => return d
    | some '#' =>
      cut do
        comment
        lineEnding
      blanks
      lines fuel d
    | some '[' =>
      let d ← cut (header d)
      blanks
      lines fuel d
    | some '\n' =>
      newline
      blanks
      lines fuel d
    | some '\r' =>
      if ← succeeds newline then
        newline
        blanks
        lines fuel d
      else fail
    | some _ =>
      let d ← cut (pair d)
      blanks
      lines fuel d

/-- A whole document; a byte order mark at its beginning is passed over. -/
def document : Scan Entries := do
  let _ ← attempt (char '\ufeff')
  blanks
  let d ← lines (← bound) {}
  match d.finish with
  | .ok d => return d.root
  | .error cause => refuse cause (← here)

end Grammar

/-- The entries of a document. -/
def parse (source : String) : Except Failure Entries :=
  match Grammar.document ⟨source.toList, 0⟩ with
  | .ok (entries, _) => .ok entries
  | .error f => .error f

end SwitchLint.Toml
