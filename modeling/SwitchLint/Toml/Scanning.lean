/-!
Scanners over a text, with failures that say what is wrong and where. A failure is final once the text
can only be meant in one way; any other failure lets an alternative be tried from the same place.
-/

namespace SwitchLint.Toml

/-- The bytes from `start` up to `stop`. -/
structure Extent where
  start : Nat
  stop : Nat
  deriving DecidableEq, Repr, Inhabited

/-- Something that could have stood at the place of a failure. -/
inductive Wanted where
  /-- A line break. -/
  | newline
  /-- Exactly this text. -/
  | spelled (text : String)
  | described (text : String)
  deriving DecidableEq, Repr

/-- A reason that lies in what the text means, not in how it is spelled. -/
inductive Cause where
  /-- A key that was set before; the table that holds it, where it is known. -/
  | duplicateKey (key : String) (table : Option (List String))
  /-- A dotted key leads through a value that is no table. -/
  | extendsValue (path : List String) (type : String)
  | outOfRange
  | tooDeep
  | tooLarge
  | tooSmall
  deriving DecidableEq, Repr

/-- A failure at a byte of the text. -/
structure Failure where
  offset : Nat
  final : Bool := false
  /-- What was being read. -/
  label : Option String := none
  wanted : List Wanted := []
  cause : Option Cause := none
  deriving Repr

def Wanted.text : Wanted → String
  | newline => "newline"
  | spelled s => s!"\x60{s}\x60"
  | described s => s

def Cause.text : Cause → String
  | duplicateKey key none => s!"duplicate key \x60{key}\x60"
  | duplicateKey key (some []) => s!"duplicate key \x60{key}\x60 in document root"
  | duplicateKey key (some table) =>
    let path := ".".intercalate table
    s!"duplicate key \x60{key}\x60 in table \x60{path}\x60"
  | extendsValue path type =>
    let path := ".".intercalate path
    s!"dotted key \x60{path}\x60 attempted to extend non-table type ({type})"
  | outOfRange => "value is out of range"
  | tooDeep => "recursion limit exceeded"
  | tooLarge => "number too large to fit in target type"
  | tooSmall => "number too small to fit in target type"

/-- What is said of a failure, apart from its place. -/
def Failure.message (f : Failure) : String :=
  "\n".intercalate <|
    (f.label.map fun l => s!"invalid {l}").toList ++
    (if f.wanted = [] then []
      else ["expected " ++ ", ".intercalate (f.wanted.map Wanted.text)]) ++
    (f.cause.map Cause.text).toList

/-- The rest of the text and how many bytes lie before it. -/
structure Cursor where
  rest : List Char
  offset : Nat
  deriving Repr

abbrev Scan := StateT Cursor (Except Failure)

/-- The UTF-8 length of a text. -/
def byteLength (cs : List Char) : Nat := (cs.map Char.utf8Size).foldr (· + ·) 0

namespace Scan

/-- Fails here. -/
def fail {α : Type} : Scan α := fun c => .error { offset := c.offset }

/-- Fails for a reason, at a place. -/
def refuse {α : Type} (cause : Cause) (offset : Nat) : Scan α := fun _ =>
  .error { offset, final := true, cause := some cause }

/-- A failure of `p` is final. -/
def cut {α : Type} (p : Scan α) : Scan α := fun c =>
  match p c with
  | .ok r => .ok r
  | .error f => .error { f with final := true }

/-- Names what `p` reads; the name given first stays. -/
def label {α : Type} (name : String) (p : Scan α) : Scan α := fun c =>
  match p c with
  | .ok r => .ok r
  | .error f => .error { f with label := f.label.orElse fun _ => some name }

/-- Says what could stand where `p` fails. -/
def wants {α : Type} (wanted : List Wanted) (p : Scan α) : Scan α := fun c =>
  match p c with
  | .ok r => .ok r
  | .error f => .error { f with wanted := f.wanted ++ wanted }

/-- The outcome of `p`, or nothing, from the same place, if it fails without being final. -/
def attempt {α : Type} (p : Scan α) : Scan (Option α) := fun c =>
  match p c with
  | .ok (a, c') => .ok (some a, c')
  | .error f => if f.final then .error f else .ok (none, c)

/-- Runs `p`, or `q` from the same place if `p` fails without being final. -/
def orElse {α : Type} (p q : Scan α) : Scan α := fun c =>
  match p c with
  | .ok r => .ok r
  | .error f => if f.final then .error f else q c

/-- Does `p` get through? The cursor stays. -/
def succeeds {α : Type} (p : Scan α) : Scan Bool := fun c =>
  match p c with
  | .ok _ => .ok (true, c)
  | .error _ => .ok (false, c)

/-- The next character, if there is one. -/
def peek? : Scan (Option Char) := fun c => .ok (c.rest.head?, c)

/-- How many bytes lie before the cursor. -/
def here : Scan Nat := fun c => .ok (c.offset, c)

/-- The rest of the text. -/
def ahead : Scan (List Char) := fun c => .ok (c.rest, c)

/-- A number of steps that no loop over the rest of the text exceeds. -/
def bound : Scan Nat := fun c => .ok (c.rest.length + 1, c)

/-- The next character, where `p` holds for it. -/
def one (p : Char → Bool) : Scan Char := fun c =>
  match c.rest with
  | x :: xs => if p x then .ok (x, ⟨xs, c.offset + x.utf8Size⟩) else .error { offset := c.offset }
  | [] => .error { offset := c.offset }

def char (x : Char) : Scan Unit := do
  let _ ← one (· == x)

/-- Exactly this text; fails before its first character. -/
def text (s : String) : Scan Unit := fun c =>
  if s.toList.isPrefixOf c.rest then
    .ok ((), ⟨c.rest.drop s.length, c.offset + s.utf8ByteSize⟩)
  else .error { offset := c.offset }

/-- All characters from here on for which `p` holds. -/
def takeWhile (p : Char → Bool) : Scan (List Char) := fun c =>
  let taken := c.rest.takeWhile p
  .ok (taken, ⟨c.rest.dropWhile p, c.offset + byteLength taken⟩)

/-- Exactly `n` characters for which `p` holds; fails before the first of them. -/
def exactly (n : Nat) (p : Char → Bool) : Scan (List Char) := fun c =>
  let taken := (c.rest.take n).takeWhile p
  if taken.length = n then
    .ok (taken, ⟨c.rest.drop n, c.offset + byteLength taken⟩)
  else .error { offset := c.offset }

/-- Repeats `p` until it fails without being final, and collects what it gives. -/
def many {α : Type} (p : Scan α) : Nat → Scan (List α)
  | 0 => pure []
  | fuel + 1 => do
    match ← attempt p with
    | some a => return a :: (← many p fuel)
    | none => return []

/-- One or more times `p`, with `separator` between. A separator that nothing follows is left. -/
def separated {α : Type} (p : Scan α) (separator : Scan Unit) : Scan (List α) := do
  let first ← p
  return first :: (← many (do separator; p) (← bound))

/-- What `p` reads and where. -/
def located {α : Type} (p : Scan α) : Scan (α × Extent) := do
  let start ← here
  let a ← p
  return (a, ⟨start, ← here⟩)

/-- Runs `p`, and `f` on what it gives; a reason that `f` has to refuse it stands where `p` began. -/
def checked {α β : Type} (p : Scan α) (f : α → Except Cause β) : Scan β := do
  let start ← here
  match f (← p) with
  | .ok b => return b
  | .error cause => fun _ => .error { offset := start, cause := some cause }

end Scan

/-! ### Blanks, line breaks and comments -/

def isBlank (c : Char) : Bool := c == ' ' || c == '\t'

/-- May the character stand in a comment? -/
def inComment (c : Char) : Bool := c == '\t' || (0x20 ≤ c.toNat && c.toNat ≠ 0x7f)

def isDigit (c : Char) : Bool := '0' ≤ c && c ≤ '9'

def isHexDigit (c : Char) : Bool := isDigit c || ('a' ≤ c && c ≤ 'f') || ('A' ≤ c && c ≤ 'F')

open Scan

def blanks : Scan Unit := do
  let _ ← takeWhile isBlank

/-- A line feed, or a carriage return and a line feed. -/
def newline : Scan Unit := orElse (char '\n') (do char '\r'; char '\n')

def comment : Scan Unit := do
  char '#'
  let _ ← takeWhile inComment

def endOfText : Scan Unit := do
  if (← peek?).isSome then fail

def lineEnding : Scan Unit := orElse newline endOfText

/-- Blanks and a comment up to the end of the line. -/
def lineTrailing : Scan Unit := do
  blanks
  let _ ← attempt comment
  lineEnding

/-- Blanks, line breaks and comments, as between the elements of an array. -/
def blankLines : Nat → Scan Unit
  | 0 => pure ()
  | fuel + 1 => do
    blanks
    match ← peek? with
    | some '#' =>
      comment
      newline
      blankLines fuel
    | some '\n' =>
      newline
      blankLines fuel
    | some '\r' =>
      newline
      blankLines fuel
    | _ => pure ()

/-- Blanks and line breaks. -/
def blanksAndBreaks : Scan Unit := do
  let _ ← many (orElse newline (do let _ ← one isBlank; blanks)) (← bound)

end SwitchLint.Toml
