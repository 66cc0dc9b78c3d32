import SwitchLint.Source.Position
import SwitchLint.Text.Pattern
import SwitchLint.Text.Identifier

/-!
The lexemes of a Go source. Scanning takes the longest lexeme at each place and drops blanks and
comments, but each lexeme remembers the first line break of the gap before it: whether that break
ends a statement is for the grammar to say, as is where a longer mark is cut into shorter ones
(`a++b` in an expression list is `a + +b`). Where no lexeme begins an unknown one stands for what is
passed over, so every source has lexemes.
-/

namespace SwitchLint.Go

open SwitchLint.Text

/-- A run of line feeds: where it starts, and the offset after it. -/
structure Break where
  start : Position
  stop : Nat
  deriving DecidableEq, Repr, Inhabited

namespace Lexeme

/-- What a lexeme looks like. -/
inductive Shape where
  | word
  | int
  | float
  | imaginary
  | rune
  | interpreted
  | raw
  | mark
  | nul
  | unknown
  | eof
  deriving DecidableEq, Repr, Inhabited

end Lexeme

/-- A lexeme with its place and the first line break of the gap before it. -/
structure Lexeme where
  shape : Lexeme.Shape
  text : String
  start : Position
  stop : Nat
  newline : Option Break
  deriving DecidableEq, Repr, Inhabited

namespace Lexeme

def span (l : Lexeme) : Span := l.start.upTo l.stop

/-- The point after the last character of a lexeme. -/
def finish (l : Lexeme) : Position := l.start.after l.text.toList

/-- Cuts a lexeme after its first `n` characters; the second part follows without a gap. -/
def cut (n : Nat) (l : Lexeme) : Lexeme × Lexeme :=
  let first := l.text.toList.take n
  let middle := l.start.after first
  ({ l with text := String.ofList first, stop := middle.offset },
    { l with text := String.ofList (l.text.toList.drop n), start := middle, newline := none })

/-! ### Numbers and runes -/

section Patterns

open Pattern

/-- Digits, with single underscores between them. -/
def digits (digit : Pattern) : Pattern := seq digit (star (seq (opt (exactly "_")) digit))

def decimalDigit : Pattern := one Char.isDigit
def hexDigit : Pattern := oneOf "0123456789abcdefABCDEF"
def octalDigit : Pattern := oneOf "01234567"
def binaryDigit : Pattern := oneOf "01"

def intPattern : Pattern :=
  anyOf [
    chain [exactly "0", oneOf "bB", opt (exactly "_"), digits binaryDigit],
    exactly "0",
    chain [oneOf "123456789", opt (seq (opt (exactly "_")) (digits decimalDigit))],
    chain [exactly "0", opt (oneOf "oO"), opt (exactly "_"), digits octalDigit],
    chain [exactly "0", oneOf "xX", opt (exactly "_"), digits hexDigit]]

def decimalExponent : Pattern := chain [oneOf "eE", opt (oneOf "+-"), digits decimalDigit]

def hexExponent : Pattern := chain [oneOf "pP", opt (oneOf "+-"), digits decimalDigit]

def floatPattern : Pattern :=
  anyOf [
    chain [digits decimalDigit, exactly ".", opt (digits decimalDigit), opt decimalExponent],
    chain [digits decimalDigit, decimalExponent],
    chain [exactly ".", digits decimalDigit, opt decimalExponent],
    chain [exactly "0", oneOf "xX",
      anyOf [
        chain [opt (exactly "_"), digits hexDigit, exactly ".", opt (digits hexDigit)],
        chain [opt (exactly "_"), digits hexDigit],
        chain [exactly ".", digits hexDigit]],
      hexExponent]]

def imaginaryPattern : Pattern :=
  seq (anyOf [digits decimalDigit, intPattern, floatPattern]) (exactly "i")

def runePattern : Pattern :=
  chain [exactly "'",
    alt (one fun c => c ≠ '\x27' && c ≠ '\\')
      (seq (exactly "\\")
        (anyOf [
          seq (exactly "x") (times 2 hexDigit),
          times 3 octalDigit,
          seq (exactly "u") (times 4 hexDigit),
          seq (exactly "U") (times 8 hexDigit),
          oneOf "abfnrtv\\'\""])),
    exactly "'"]

end Patterns

/-- The longest number at the beginning of the text, with its shape. -/
def number (cs : List Char) : Option (Shape × Nat) :=
  let candidates := [(Shape.int, intPattern.longest cs), (.float, floatPattern.longest cs),
    (.imaginary, imaginaryPattern.longest cs)]
  candidates.foldl
    (fun best c =>
      match best, c.2 with
      | none, some n => some (c.1, n)
      | some b, some n => if b.2 < n then some (c.1, n) else some b
      | best, none => best)
    none

/-! ### Comments and strings -/

/-- The blanks of Go. -/
def isSpace (c : Char) : Bool :=
  c == ' ' || c == '\t' || c == '\n' || c == '\x0b' || c == '\x0c' || c == '\r'

/-- Length of the rest of a comment opened by a slash and a star, through the closing mark. -/
def blockCommentRest : List Char → Option Nat
  | '*' :: '/' :: _ => some 2
  | _ :: cs => (blockCommentRest cs).map (· + 1)
  | [] => none

/-- Length of the comment at the beginning of the text. -/
def comment : List Char → Option Nat
  | '/' :: '/' :: cs => some (2 + (cs.takeWhile (· ≠ '\n')).length)
  | '/' :: '*' :: cs => (blockCommentRest cs).map (· + 2)
  | _ => none

/-- Length of the rest of a raw string, through its closing mark. -/
def rawRest (cs : List Char) : Option Nat :=
  let inside := (cs.takeWhile (· ≠ '\x60')).length
  if inside < cs.length then some (inside + 1) else none

section Patterns

open Pattern

/-- What may stand after the backslash of an escape in an interpreted string. -/
def escapePattern : Pattern :=
  anyOf [
    one fun c => c ≠ 'x' && c ≠ 'u' && c ≠ 'U',
    seq decimalDigit (seq decimalDigit (opt decimalDigit)),
    chain [exactly "x", times 2 hexDigit, star hexDigit],
    seq (exactly "u") (times 4 hexDigit),
    seq (exactly "U") (times 8 hexDigit)]

end Patterns

/-- Length of the rest of an interpreted string, through its closing mark. A line break inside the
string must be followed by a comment, blanks apart. -/
def interpretedRest : Nat → List Char → Option Nat
  | 0, _ => none
  | fuel + 1, cs =>
    match cs with
    | [] => none
    | '\x22' :: _ => some 1
    | '\\' :: cs => do
      let n ← escapePattern.longest cs
      let rest ← interpretedRest fuel (cs.drop n)
      pure (1 + n + rest)
    | '\n' :: _ => do
      let gap := (cs.takeWhile isSpace).length
      let n ← comment (cs.drop gap)
      let rest ← interpretedRest fuel (cs.drop (gap + n))
      pure (gap + n + rest)
    | _ :: cs => (interpretedRest fuel cs).map (· + 1)

/-! ### Marks -/

/-- The operators and punctuation, longer ones before their beginnings. -/
def marks : List String :=
  ["<<=", ">>=", "&^=", "...", "&&", "||", "<-", "++", "--", "==", "!=", "<=", ">=", ":=", "+=",
    "-=", "*=", "/=", "%=", "&=", "|=", "^=", "<<", ">>", "&^", ";", ".", "(", ")", ",", "=", "[",
    "]", "*", "~", "\x7b", "\x7d", "|", ":", "+", "-", "!", "^", "&", "/", "%", "<", ">"]

/-- Length of the longest mark at the beginning of the text. -/
def mark (cs : List Char) : Option Nat :=
  (marks.find? fun m => m.toList.isPrefixOf cs).map (·.length)

/-! ### Scanning -/

/-- Length of the beginning of a text where no lexeme begins: a string or rune that is not closed,
or a character that no lexeme starts with. -/
def unknown : List Char → Nat
  | '\x60' :: cs => cs.length + 1
  | '\x22' :: cs => (cs.takeWhile (· ≠ '\n')).length + 1
  | '\x27' :: c :: _ => if c = '\x27' then 1 else 2
  | _ => 1

/-- Shape and length of the lexeme at the beginning of a text that starts with no blank. -/
def measure : List Char → Shape × Nat
  | [] => (.eof, 0)
  | '\x00' :: _ => (.nul, 1)
  | c :: cs =>
    let found :=
      if c = '\x60' then (rawRest cs).map fun n => (Shape.raw, n + 1)
      else if c = '\x22' then (interpretedRest (cs.length + 1) cs).map fun n => (.interpreted, n + 1)
      else if c = '\x27' then (runePattern.longest (c :: cs)).map fun n => (.rune, n)
      else if isIdentifierStart c then
        some (.word, 1 + (cs.takeWhile isIdentifierPart).length)
      else (number (c :: cs)).or ((mark (c :: cs)).map fun n => (.mark, n))
    found.getD (.unknown, unknown (c :: cs))

/-- A gap between lexemes: where it ends, its first line break, and the text after it. -/
structure Gap where
  stop : Position
  newline : Option Break
  rest : List Char

/-- Skips blanks and comments. The first line break seen is kept, together with the line feeds that
follow it immediately. -/
def skipGap : Nat → Position → Option Break → List Char → Gap
  | 0, p, b, cs => ⟨p, b, cs⟩
  | fuel + 1, p, b, cs =>
    match cs with
    | [] => ⟨p, b, []⟩
    | c :: rest =>
      if c = '\n' then
        let run : Break := ⟨p, p.offset + 1 + (rest.takeWhile (· == '\n')).length⟩
        skipGap fuel (p.advance c) (b.or (some run)) rest
      else if isSpace c then skipGap fuel (p.advance c) b rest
      else
        match comment (c :: rest) with
        | some n => skipGap fuel (p.after ((c :: rest).take n)) b ((c :: rest).drop n)
        | none => ⟨p, b, c :: rest⟩

/-- The lexemes of the text that begins at `p`, with a last one for its end. -/
def scanFrom : Nat → Position → List Char → List Lexeme
  | 0, p, _ => [⟨.eof, "", p, p.offset, none⟩]
  | fuel + 1, p, cs =>
    let gap := skipGap cs.length p none cs
    match measure gap.rest with
    | (.eof, _) => [⟨.eof, "", gap.stop, gap.stop.offset, gap.newline⟩]
    | (shape, n) =>
      let taken := gap.rest.take n
      let stop := gap.stop.after taken
      ⟨shape, String.ofList taken, gap.stop, stop.offset, gap.newline⟩ ::
        scanFrom fuel stop (gap.rest.drop n)

/-- Where the first thing in a source stands that is no blank. -/
def outset (source : String) : Position :=
  Position.origin.after (source.toList.takeWhile fun c => isSpace c || c == '\ufeff')

/-- The lexemes of a source. A byte order mark at its very beginning is skipped. -/
def scan (source : String) : List Lexeme :=
  match source.toList with
  | '\ufeff' :: cs => scanFrom (cs.length + 1) (Position.origin.advance '\ufeff') cs
  | cs => scanFrom (cs.length + 1) Position.origin cs

end Lexeme

end SwitchLint.Go
