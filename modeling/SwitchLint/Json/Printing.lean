import SwitchLint.Decimal.Shortest
import SwitchLint.Json.Value

/-!
JSON text over several lines: two spaces for each level, one entry or element on each line, nothing
between the brackets of an empty array or object.
-/

namespace SwitchLint.JsonValue

/-- A digit of a number below 16. -/
def hexDigit (n : Nat) : Char := (Nat.digitChar n)

/-- A character of a string between quotes. Quotes, backslashes and control characters are escaped. -/
def stringChar (c : Char) : List Char :=
  if c = '\x22' then ['\\', '\x22']
  else if c = '\\' then ['\\', '\\']
  else if c = '\x08' then ['\\', 'b']
  else if c = '\x0c' then ['\\', 'f']
  else if c = '\n' then ['\\', 'n']
  else if c = '\r' then ['\\', 'r']
  else if c = '\t' then ['\\', 't']
  else if c.toNat < 0x20 then
    ['\\', 'u', '0', '0', hexDigit (c.toNat / 16), hexDigit (c.toNat % 16)]
  else [c]

/-- A string between quotes. -/
def stringChars (s : String) : List Char := '\x22' :: s.toList.flatMap stringChar ++ ['\x22']

/-- A line break and the blanks that begin a line at that depth. -/
def newline (depth : Nat) : List Char := '\n' :: List.replicate (2 * depth) ' '

mutual

/-- The text of a value that stands at that depth. -/
def chars (depth : Nat) : JsonValue → List Char
  | null => "null".toList
  | boolean b => (if b then "true" else "false").toList
  | integer i => (toString i).toList
  | float bits => (Decimal.compactText bits).toList
  | string s => stringChars s
  | array [] => ['[', ']']
  | array (v :: vs) =>
    '[' :: newline (depth + 1) ++ chars (depth + 1) v ++ elementChars (depth + 1) vs ++
      newline depth ++ [']']
  | object [] => ['\x7b', '\x7d']
  | object ((k, v) :: es) =>
    '\x7b' :: newline (depth + 1) ++ stringChars k ++ [':', ' '] ++ chars (depth + 1) v ++
      entryChars (depth + 1) es ++ newline depth ++ ['\x7d']

/-- The elements of an array after the first. -/
def elementChars (depth : Nat) : List JsonValue → List Char
  | [] => []
  | v :: vs => ',' :: newline depth ++ chars depth v ++ elementChars depth vs

/-- The entries of an object after the first. -/
def entryChars (depth : Nat) : List (String × JsonValue) → List Char
  | [] => []
  | (k, v) :: es =>
    ',' :: newline depth ++ stringChars k ++ [':', ' '] ++ chars depth v ++ entryChars depth es

end

/-- The text of a value. -/
def text (v : JsonValue) : String := String.ofList (chars 0 v)

end SwitchLint.JsonValue
