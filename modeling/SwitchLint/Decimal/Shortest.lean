/-!
The shortest decimal that reads back as a given IEEE double. The doubles next to a value `m * 2 ^ q`
leave it an interval of reals that round to it; of the grids with 1, 2, … 17 significant digits the
first that has a point in the interval is taken, and there the point nearest to the value. A grid has a
point in the interval only if one of the two around the value is.
-/

namespace SwitchLint.Decimal

/-- A positive rational. -/
structure Ratio where
  num : Nat
  den : Nat
  deriving Repr

/-- `n * base ^ e` -/
def Ratio.scaled (n base : Nat) (e : Int) : Ratio :=
  match e with
  | .ofNat k => ⟨n * Nat.pow base k, 1⟩
  | .negSucc k => ⟨n, Nat.pow base (k + 1)⟩

def Ratio.le (a b : Ratio) : Bool := a.num * b.den ≤ b.num * a.den

def Ratio.lt (a b : Ratio) : Bool := a.num * b.den < b.num * a.den

/-- The number of decimal digits. -/
def digitCount (n : Nat) : Nat := (Nat.toDigits 10 n).length

/-- The exponent of the leading digit. -/
def leading (v : Ratio) : Int :=
  if v.den ≤ v.num then (digitCount (v.num / v.den) : Int) - 1
  else
    let d := digitCount (v.den / v.num)
    if v.den ≤ v.num * Nat.pow 10 (d - 1) then 1 - (d : Int) else -(d : Int)

/-- The reals that round to a value: from `low` to `high`, ends included if `closed`. -/
structure Interval where
  low : Ratio
  high : Ratio
  closed : Bool

def Interval.has (i : Interval) (x : Ratio) : Bool :=
  if i.closed then i.low.le x && x.le i.high else i.low.lt x && x.lt i.high

/-- The point of the grid of multiples of `10 ^ k` that lies in the interval nearest to `v`; of two
equally near the even one. -/
def onGrid (v : Ratio) (i : Interval) (k : Int) : Option Nat :=
  let unit := Ratio.scaled 1 10 k
  let below := v.num * unit.den / (v.den * unit.num)
  let rest := v.num * unit.den % (v.den * unit.num)
  let point (c : Nat) : Bool := c ≠ 0 && i.has ⟨c * unit.num, unit.den⟩
  let upIsNearer : Bool :=
    if 2 * rest = v.den * unit.num then below % 2 == 1 else v.den * unit.num < 2 * rest
  match point below, point (below + 1) with
  | true, true => some (if upIsNearer then below + 1 else below)
  | true, false => some below
  | false, true => some (below + 1)
  | false, false => none

/-- The digits and the exponent of the shortest decimal for `v`. -/
def shortestIn (v : Ratio) (i : Interval) : Nat × Int :=
  let top := leading v
  ((List.range 17).findSome? fun (n : Nat) =>
    let k := top - (n : Int)
    (onGrid v i k).map (·, k)).getD (v.num / v.den, 0)

/-- The parts of the bits of a double: sign, exponent field and fraction. -/
structure Binary64 where
  negative : Bool
  exponent : Nat
  fraction : Nat
  deriving Repr, DecidableEq

def Binary64.ofBits (bits : UInt64) : Binary64 where
  negative := bits.toNat / Nat.pow 2 63 == 1
  exponent := bits.toNat / Nat.pow 2 52 % Nat.pow 2 11
  fraction := bits.toNat % Nat.pow 2 52

/-- The shortest decimal `d * 10 ^ e` for a finite double other than zero, without its sign. -/
def shortest (b : Binary64) : Nat × Int :=
  let m := if b.exponent = 0 then b.fraction else b.fraction + Nat.pow 2 52
  let q : Int := (max b.exponent 1 : Nat) - 1075
  let lowest := b.fraction = 0 ∧ 1 < b.exponent
  shortestIn (.scaled m 2 q)
    { low := .scaled (4 * m - if lowest then 1 else 2) 2 (q - 2)
      high := .scaled (4 * m + 2) 2 (q - 2)
      closed := m % 2 = 0 }

/-- `d * 10 ^ e` written out, with at least one digit after the point. -/
def positional (d : Nat) (e : Int) : String :=
  match e with
  | .ofNat k => s!"{d * Nat.pow 10 k}.0"
  | .negSucc k =>
    let places := k + 1
    let fraction := (Nat.toDigits 10 (d % Nat.pow 10 places))
    let zeros := List.replicate (places - fraction.length) '0'
    s!"{d / Nat.pow 10 places}." ++ String.ofList (zeros ++ fraction)

/-- `d * 10 ^ e` with one digit before the point and an exponent. -/
def scientific (d : Nat) (e : Int) : String :=
  let digits := (Nat.toDigits 10 d).reverse.dropWhile (· == '0') |>.reverse
  let exponent := e + digitCount d - 1
  let sign := if exponent < 0 then "-" else "+"
  let width := toString exponent.natAbs
  let fraction := if digits.length ≤ 1 then "" else "." ++ String.ofList (digits.drop 1)
  String.ofList (digits.take 1) ++ fraction ++ "e" ++ sign ++
    (if width.length < 2 then "0" ++ width else width)

/-- A double in decimal digits without an exponent. -/
def text (bits : UInt64) : String :=
  let b := Binary64.ofBits bits
  let sign := if b.negative then "-" else ""
  if b.exponent = 2047 then if b.fraction = 0 then sign ++ "inf" else "NaN"
  else if b.exponent = 0 ∧ b.fraction = 0 then sign ++ "0.0"
  else
    let (d, e) := shortest b
    sign ++ positional d e

/-- A double in decimal digits, with an exponent where it is far from one. -/
def compactText (bits : UInt64) : String :=
  let b := Binary64.ofBits bits
  let sign := if b.negative then "-" else ""
  if b.exponent = 2047 then if b.fraction = 0 then sign ++ "inf" else "NaN"
  else if b.exponent = 0 ∧ b.fraction = 0 then sign ++ "0.0"
  else
    let (d, e) := shortest b
    let point := e + digitCount d
    if -5 < point ∧ point ≤ 16 then sign ++ positional d e else sign ++ scientific d e

end SwitchLint.Decimal
