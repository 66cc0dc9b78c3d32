import SwitchLint.Decimal.Nearest
import SwitchLint.Json.Value

/-!
Reading JSON text. Blanks may stand before every value and every mark, and at the end. Arrays and objects
may be nested 127 deep.
-/

namespace SwitchLint

/-- Reads the beginning of a text. The rest of the text comes with the outcome. -/
abbrev JsonReader (α : Type) := List Char → Option (α × List Char)

namespace JsonReader

def isBlank (c : Char) : Bool := c == ' ' || c == '\n' || c == '\r' || c == '\t'

def skip (cs : List Char) : List Char := cs.dropWhile isBlank

/-! ### Strings -/

/-- The number that a hexadecimal digit stands for. -/
def hexValue? (c : Char) : Option Nat :=
  if '0' ≤ c ∧ c ≤ '9' then some (c.toNat - 48)
  else if 'a' ≤ c ∧ c ≤ 'f' then some (c.toNat - 87)
  else if 'A' ≤ c ∧ c ≤ 'F' then some (c.toNat - 55)
  else none

def codeUnit : JsonReader Nat
  | a :: b :: c :: d :: cs => do
    let high := 16 * (← hexValue? a) + (← hexValue? b)
    let low := 16 * (← hexValue? c) + (← hexValue? d)
    return (256 * high + low, cs)
  | _ => none

/-- The character of one code unit or of a pair of surrogates, from after the first `\u`. A surrogate
without its other half is refused. -/
def codePoint : JsonReader Char := fun cs => do
  let (unit, cs) ← codeUnit cs
  if 0xdc00 ≤ unit ∧ unit < 0xe000 then none
  else if 0xd800 ≤ unit ∧ unit < 0xdc00 then
    match cs with
    | '\\' :: 'u' :: cs =>
      let (second, cs) ← codeUnit cs
      if 0xdc00 ≤ second ∧ second < 0xe000 then
        return (Char.ofNat (0x10000 + 0x400 * (unit - 0xd800) + (second - 0xdc00)), cs)
      else none
    | _ => none
  else return (Char.ofNat unit, cs)

/-- The character that a single letter or mark after a backslash stands for. -/
def shortEscape? : Char → Option Char
  | '\x22' => some '\x22'
  | '\\' => some '\\'
  | '/' => some '/'
  | 'b' => some '\x08'
  | 'f' => some '\x0c'
  | 'n' => some '\n'
  | 'r' => some '\r'
  | 't' => some '\t'
  | _ => none

/-- The character of a string whose text begins with `c`. Control characters have to be escaped. -/
def character (c : Char) (cs : List Char) : Option (Char × List Char) :=
  if c = '\\' then
    match cs with
    | [] => none
    | e :: cs => if e = 'u' then codePoint cs else (shortEscape? e).map (·, cs)
  else if c.toNat < 0x20 then none
  else some (c, cs)

/-- The characters of a string up to its closing quote, with no more of them than `bound`. -/
def characters (bound : Nat) : JsonReader (List Char)
  | [] => none
  | c :: cs =>
    if c = '\x22' then some ([], cs)
    else
      match bound with
      | 0 => none
      | bound + 1 => do
        let (first, cs) ← character c cs
        let (others, cs) ← characters bound cs
        return (first :: others, cs)

def string : JsonReader String := fun cs => do
  let (read, rest) ← characters cs.length cs
  return (String.ofList read, rest)

/-! ### Numbers -/

def digits : JsonReader (List Char) := fun cs =>
  match cs.takeWhile Char.isDigit with
  | [] => none
  | d :: ds => some (d :: ds, cs.dropWhile Char.isDigit)

/-- The digits before the point. Of several the first is not zero. -/
def whole : JsonReader (List Char) := fun cs => do
  let (ds, cs) ← digits cs
  if ds.head? = some '0' ∧ ds ≠ ['0'] then none else return (ds, cs)

/-- The digits after the point; none where there is no point. -/
def fraction : JsonReader (List Char) := fun cs =>
  match cs with
  | '.' :: cs => digits cs
  | cs => some ([], cs)

def ofDigits (ds : List Char) : Nat := Nat.ofDigitChars 10 ds 0

def signed : JsonReader Int := fun cs => do
  match cs with
  | '-' :: cs =>
    let (ds, cs) ← digits cs
    return (-(ofDigits ds : Int), cs)
  | '+' :: cs =>
    let (ds, cs) ← digits cs
    return (ofDigits ds, cs)
  | cs =>
    let (ds, cs) ← digits cs
    return (ofDigits ds, cs)

def exponent : JsonReader (Option Int) := fun cs =>
  match cs with
  | [] => some (none, [])
  | c :: cs =>
    if c = 'e' ∨ c = 'E' then (signed cs).map fun (e, cs) => (some e, cs) else some (none, c :: cs)

/-- Does the number have 64 bits? A negative one has a bit less for its size, and there is no negative
zero. -/
def isMachineInteger (minus : Bool) (n : Nat) : Bool :=
  if minus then 0 < n && n ≤ Nat.pow 2 63 else n < Nat.pow 2 64

/-- The number of these parts: an integer if it has no fraction, no exponent and 64 bits. -/
def numberOf (minus : Bool) (before after : List Char) (exponent : Option Int) : JsonValue :=
  if after = [] ∧ exponent = none ∧ isMachineInteger minus (ofDigits before) then
    .integer (if minus then -(ofDigits before : Int) else ofDigits before)
  else
    let bits := Decimal.nearestBits (ofDigits (before ++ after)) (exponent.getD 0 - after.length)
    .float (UInt64.ofNat (if minus then bits + Nat.pow 2 63 else bits))

/-- A number, from after its sign. -/
def magnitude (minus : Bool) : JsonReader JsonValue := fun cs => do
  let (before, cs) ← whole cs
  let (after, cs) ← fraction cs
  let (e, cs) ← exponent cs
  return (numberOf minus before after e, cs)

def number : JsonReader JsonValue := fun cs =>
  match cs with
  | '-' :: cs => magnitude true cs
  | cs => magnitude false cs

/-! ### Arrays and objects -/

/-- What `one` reads, with commas between, up to and with the closing bracket; no more than `bound` of
them. -/
def elements {α : Type} (one : JsonReader α) (close : Char) : Nat → JsonReader (List α)
  | 0, _ => none
  | bound + 1, cs => do
    let (first, cs) ← one cs
    match skip cs with
    | [] => none
    | c :: cs =>
      if c = ',' then
        let (others, cs) ← elements one close bound cs
        return (first :: others, cs)
      else if c = close then return ([first], cs)
      else none

def bracketed {α : Type} (one : JsonReader α) (close : Char) : JsonReader (List α) := fun cs =>
  match skip cs with
  | [] => none
  | c :: cs => if c = close then some ([], cs) else elements one close (cs.length + 1) (c :: cs)

def entry (value : JsonReader JsonValue) : JsonReader (String × JsonValue) := fun cs =>
  match skip cs with
  | '\x22' :: cs => do
    let (key, cs) ← string cs
    match skip cs with
    | ':' :: cs =>
      let (v, cs) ← value cs
      return ((key, v), cs)
    | _ => none
  | _ => none

/-! ### Values -/

def scalar : JsonReader JsonValue := fun cs =>
  match cs with
  | 'n' :: 'u' :: 'l' :: 'l' :: cs => some (.null, cs)
  | 't' :: 'r' :: 'u' :: 'e' :: cs => some (.boolean true, cs)
  | 'f' :: 'a' :: 'l' :: 's' :: 'e' :: cs => some (.boolean false, cs)
  | '\x22' :: cs => (string cs).map fun (s, cs) => (.string s, cs)
  | cs => number cs

/-- A value, with at most that many levels of arrays and objects. -/
def value (levels : Nat) : JsonReader JsonValue := fun cs =>
  match skip cs with
  | '[' :: cs =>
    match levels with
    | 0 => none
    | levels + 1 => (bracketed (value levels) ']' cs).map fun (vs, cs) => (.array vs, cs)
  | '\x7b' :: cs =>
    match levels with
    | 0 => none
    | levels + 1 =>
      (bracketed (entry (value levels)) '\x7d' cs).map fun (es, cs) => (.object es, cs)
  | cs => scalar cs

/-- How deep arrays and objects may be nested. -/
def maxLevels : Nat := 127

end JsonReader

/-- The value that is all of a text. -/
def JsonValue.ofText (text : String) : Option JsonValue := do
  let (v, rest) ← JsonReader.value JsonReader.maxLevels text.toList
  if JsonReader.skip rest = [] then some v else none

end SwitchLint
