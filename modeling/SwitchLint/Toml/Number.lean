import SwitchLint.Decimal.Nearest
import SwitchLint.Toml.Scanning

/-!
The numbers of TOML: integers of 64 bits in four bases, and floating-point numbers.
-/

namespace SwitchLint.Toml.Grammar

open Scan

/-! ### Digits -/

/-- Digits with single underscores between them, from after the first. -/
def moreDigits (p : Char → Bool) : Nat → Scan (List Char)
  | 0 => pure []
  | fuel + 1 => do
    match ← peek? with
    | some '_' =>
      char '_'
      let d ← cut (wants [.described "digit"] (one p))
      return d :: (← moreDigits p fuel)
    | some c =>
      if p c then
        let d ← one p
        return d :: (← moreDigits p fuel)
      else return []
    | none => return []

/-- One digit or more. -/
def digits (p : Char → Bool) : Scan (List Char) := do
  let first ← one p
  return first :: (← moreDigits p (← bound))

/-- The number that decimal digits stand for. -/
def ofDigits (ds : List Char) : Nat := ds.foldl (fun n c => 10 * n + (c.toNat - 48)) 0

/-- A sign; is it a minus? -/
def sign : Scan Bool := do
  match ← peek? with
  | some '+' =>
    char '+'
    return false
  | some '-' =>
    char '-'
    return true
  | _ => return false

/-- A decimal integer: its sign and its digits, the first of several of which is not zero. -/
def decimal : Scan (Bool × List Char) :=
  label "integer" do
    let minus ← sign
    match ← peek? with
    | some '0' =>
      char '0'
      return (minus, ['0'])
    | _ => return (minus, ← digits isDigit)

/-! ### Integers -/

/-- An integer of 64 bits. -/
def bounded (i : Int) : Except Cause Int :=
  if i < -(Int.pow 2 63) then .error .tooSmall else if Int.pow 2 63 ≤ i then .error .tooLarge else .ok i

/-- The digits after a mark such as `0x`. -/
def based (mark name : String) (base : Nat) (p : Char → Bool) : Scan Int :=
  cut <| checked
    (label name do
      text mark
      cut (digits p))
    fun ds =>
      bounded (ds.foldl (fun n c =>
        base * n +
          (if isDigit c then c.toNat - 48 else if 'a' ≤ c then c.toNat - 87 else c.toNat - 55)) 0 : Nat)

def integer : Scan Int := do
  match ← ahead with
  | '0' :: 'x' :: _ => based "0x" "hexadecimal integer" 16 isHexDigit
  | '0' :: 'o' :: _ => based "0o" "octal integer" 8 fun c => '0' ≤ c && c ≤ '7'
  | '0' :: 'b' :: _ => based "0b" "binary integer" 2 fun c => c == '0' || c == '1'
  | _ =>
    let start ← here
    let (minus, ds) ← decimal
    match bounded (if minus then -(ofDigits ds : Int) else ofDigits ds) with
    | .ok i => return i
    | .error cause => refuse cause start

/-! ### Floating-point numbers -/

/-- The bit of the sign. -/
def signBit (minus : Bool) : Nat := if minus then Nat.pow 2 63 else 0

def nanBits : Nat := 0x7ff8 * Nat.pow 2 48

/-- The exponent of a floating-point number. -/
def exponent : Scan Int := do
  let _ ← one fun c => c == 'e' || c == 'E'
  let minus ← sign
  let ds ← cut (digits isDigit)
  return if minus then -(ofDigits ds : Int) else ofDigits ds

/-- The digits after the point. -/
def fraction : Scan (List Char) := do
  char '.'
  cut (wants [.described "digit"] (digits isDigit))

/-- A number with a fraction, an exponent or both. -/
def decimalFloat : Scan UInt64 := do
  let start ← here
  let (minus, whole) ← decimal
  let (part, e) ← orElse
    (do return ([], ← exponent))
    (do
      let part ← fraction
      return (part, (← attempt exponent).getD 0))
  let bits := Decimal.nearestBits (ofDigits (whole ++ part)) (e - part.length)
  if bits = Decimal.infinityBits ∧ minus = false then
    fun _ => .error { offset := start, final := true }
  else return UInt64.ofNat (bits + signBit minus)

def infinity : Scan Nat := do
  text "inf"
  return Decimal.infinityBits

def notANumber : Scan Nat := do
  text "nan"
  return nanBits

/-- Infinity or not a number, with an optional sign. -/
def specialFloat : Scan UInt64 := do
  let minus ← sign
  return UInt64.ofNat ((← orElse infinity notANumber) + signBit minus)

def float : Scan UInt64 := label "floating-point number" (orElse decimalFloat specialFloat)

end SwitchLint.Toml.Grammar
