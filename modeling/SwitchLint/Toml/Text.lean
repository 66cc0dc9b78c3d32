import SwitchLint.Toml.Scanning

/-!
The strings of TOML: basic ones with escapes and literal ones without, each on one line or over several.
-/

namespace SwitchLint.Toml.Grammar

open Scan

/-- May the character stand unescaped in a basic string? -/
def inBasic (c : Char) : Bool := c == '\t' || (0x20 ≤ c.toNat && c ≠ '\x22' && c ≠ '\\' && c.toNat ≠ 0x7f)

/-- May the character stand in a literal string? -/
def inLiteral (c : Char) : Bool := c == '\t' || (0x20 ≤ c.toNat && c ≠ '\x27' && c.toNat ≠ 0x7f)

/-- The number that hexadecimal digits stand for. -/
def ofHex (digits : List Char) : Nat :=
  digits.foldl (fun n c =>
    16 * n +
      (if isDigit c then c.toNat - 48 else if 'a' ≤ c then c.toNat - 87 else c.toNat - 55)) 0

/-- The character of a code point in `n` hexadecimal digits. -/
def codePoint (n : Nat) : Scan Char :=
  checked (exactly n isHexDigit) fun digits =>
    let code := ofHex digits
    if code.isValidChar then .ok (Char.ofNat code) else .error .outOfRange

/-- The character that an escape stands for, from after the backslash. -/
def escaped : Scan Char := do
  match ← one fun _ => true with
  | 'b' => return '\x08'
  | 'f' => return '\x0c'
  | 'n' => return '\n'
  | 'r' => return '\r'
  | 't' => return '\t'
  | '\\' => return '\\'
  | '\x22' => return '\x22'
  | 'u' => cut (label "unicode 4-digit hex code" (codePoint 4))
  | 'U' => cut (label "unicode 8-digit hex code" (codePoint 8))
  | _ =>
    let known := ["b", "f", "n", "r", "t", "u", "U", "\\", "\x22"]
    cut (wants (known.map .spelled) (label "escape sequence" fail))

/-- Some characters of a basic string. -/
def basicPart : Scan (List Char) :=
  orElse
    (do return (← one inBasic) :: (← takeWhile inBasic))
    (do
      char '\\'
      return [← escaped])

def basicString : Scan String := do
  char '\x22'
  let parts ← many basicPart (← bound)
  cut (label "basic string" (char '\x22'))
  return String.ofList parts.flatten

/-- A backslash at the end of a line, which takes all blanks and line breaks after it away. -/
def joinedLine : Scan Unit := do
  char '\\'
  blanks
  newline
  blanksAndBreaks

/-- Some characters of a basic string over several lines. -/
def longBasicPart : Scan (List Char) :=
  orElse (do return (← one inBasic) :: (← takeWhile inBasic)) <|
  orElse (do joinedLine; return []) <|
  orElse (do char '\\'; return [← escaped])
    (do newline; return ['\n'])

/-- One or two quotes that `next` follows; `quote` is the quote. -/
def quotesBefore (quote : Char) (next : Scan Unit) : Scan (List Char) :=
  orElse
    (do
      char quote
      char quote
      if ← succeeds next then return [quote, quote] else fail)
    (do
      char quote
      if ← succeeds next then return [quote] else fail)

/-- Three quotes. -/
def delimiter (quote : Char) : Scan Unit := do
  text (String.ofList [quote, quote, quote])

/-- A character other than the quote. -/
def notQuote (quote : Char) : Scan Unit := do
  let _ ← one (· != quote)

/-- The characters of a string over several lines: parts, and quotes before other parts or at the end. -/
def longBody (quote : Char) (part : Scan (List Char)) : Scan (List Char) := do
  let parts ← many part (← bound)
  let more ← many
    (do
      let quotes ← quotesBefore quote (notQuote quote)
      let first ← part
      let rest ← many part (← bound)
      return quotes ++ first ++ rest.flatten)
    (← bound)
  return parts.flatten ++ more.flatten

/-- Quotes at the end of a string over several lines, before those that close it. -/
def lastQuotes (quote : Char) : Scan (List Char) := do
  return (← attempt (quotesBefore quote (delimiter quote))).getD []

/-- A basic string over several lines. Quotes that no further part follows are passed over before the
string has to be closed. -/
def longBasicString : Scan String :=
  label "multiline basic string" do
    delimiter '\x22'
    let _ ← attempt newline
    let body ← cut (longBody '\x22' longBasicPart)
    let _ ← attempt (quotesBefore '\x22' (notQuote '\x22'))
    let last ← lastQuotes '\x22'
    cut (delimiter '\x22')
    return String.ofList (body ++ last)

def literalString : Scan String :=
  label "literal string" do
    char '\x27'
    let body ← takeWhile inLiteral
    cut (char '\x27')
    return String.ofList body

/-- A character or a line break of a literal string over several lines. -/
def longLiteralPart : Scan (List Char) :=
  orElse (do return (← one inLiteral) :: (← takeWhile inLiteral)) (do newline; return ['\n'])

def longLiteralString : Scan String :=
  label "multiline literal string" do
    delimiter '\x27'
    let _ ← attempt newline
    let body ← cut (longBody '\x27' longLiteralPart)
    let last ← lastQuotes '\x27'
    cut (delimiter '\x27')
    return String.ofList (body ++ last)

def string : Scan String :=
  orElse longBasicString <| orElse basicString <| orElse longLiteralString literalString

end SwitchLint.Toml.Grammar
