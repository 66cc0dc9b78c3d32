import SwitchLint.Decimal.Shortest

/-!
The IEEE double nearest to a decimal; of two equally near the one with an even fraction.
-/

namespace SwitchLint.Decimal

/-- `v / 2 ^ q` rounded to the nearest integer, ties to even. -/
def scaledRound (v : Ratio) (q : Int) : Nat :=
  let (num, den) : Nat × Nat :=
    match q with
    | .ofNat k => (v.num, v.den * Nat.pow 2 k)
    | .negSucc k => (v.num * Nat.pow 2 (k + 1), v.den)
  let n := num / den
  let rest := num % den
  if 2 * rest < den then n else if den < 2 * rest then n + 1 else n + n % 2

/-- The exponent `q` of the last binary digit that a double for `v` holds. -/
def lastPlace (v : Ratio) : Int :=
  let guess : Int := (v.num.log2 : Int) - (v.den.log2 : Int) - 53
  let tooFine : Bool := (Ratio.scaled (Nat.pow 2 53) 2 guess).le v
  max (if tooFine then guess + 1 else guess) (-1074)

/-- The bits of positive infinity. -/
def infinityBits : Nat := 0x7ff * Nat.pow 2 52

/-- The bits of the double nearest to `d * 10 ^ e`, without a sign. -/
def nearestBits (d : Nat) (e : Int) : Nat :=
  if d = 0 then 0
  else
    let top := e + digitCount d
    if 310 < top then infinityBits
    else if top < -330 then 0
    else
      let v := Ratio.scaled d 10 e
      let q := lastPlace v
      min (((q + 1074).toNat) * Nat.pow 2 52 + scaledRound v q) infinityBits

end SwitchLint.Decimal
