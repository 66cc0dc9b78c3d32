import SwitchLint.Toml.Number

/-!
Dates and times. They are kept as the text in which they are shown: with `T` between date and time,
without zeros at the end of a fraction of a second, and nine digits of it at most.
-/

namespace SwitchLint.Toml.Grammar

open Scan

structure Date where
  year : Nat
  month : Nat
  day : Nat
  deriving DecidableEq, Repr

structure Time where
  hour : Nat
  minute : Nat
  second : Nat
  nanosecond : Nat
  deriving DecidableEq, Repr

/-- The difference from universal time, in minutes, or universal time itself. -/
inductive Zone where
  | utc
  | offset (minutes : Int)
  deriving DecidableEq, Repr

/-! ### Text -/

/-- A number in at least `width` digits. -/
def padded (width n : Nat) : String :=
  let ds := Nat.toDigits 10 n
  String.ofList (List.replicate (width - ds.length) '0' ++ ds)

def Date.text (d : Date) : String := s!"{padded 4 d.year}-{padded 2 d.month}-{padded 2 d.day}"

def Time.text (t : Time) : String :=
  s!"{padded 2 t.hour}:{padded 2 t.minute}:{padded 2 t.second}" ++
    if t.nanosecond = 0 then ""
    else
      let ds := (padded 9 t.nanosecond).toList
      "." ++ String.ofList (ds.reverse.dropWhile (· == '0')).reverse

def Zone.text : Zone → String
  | utc => "Z"
  | offset minutes =>
    let sign := if minutes < 0 then "-" else "+"
    s!"{sign}{padded 2 (minutes.natAbs / 60)}:{padded 2 (minutes.natAbs % 60)}"

/-! ### Scanners -/

/-- A number in exactly `n` digits, within bounds. -/
def within (n low high : Nat) : Scan Nat :=
  checked (exactly n isDigit) fun ds =>
    let v := ofDigits ds
    if low ≤ v ∧ v ≤ high then .ok v else .error .outOfRange

def daysIn (year month : Nat) : Nat :=
  if month = 2 then
    if year % 4 = 0 ∧ (year % 100 ≠ 0 ∨ year % 400 = 0) then 29 else 28
  else if month = 4 ∨ month = 6 ∨ month = 9 ∨ month = 11 then 30
  else 31

def fullDate : Scan Date := do
  let year ← within 4 0 9999
  char '-'
  let month ← cut (within 2 1 12)
  cut (char '-')
  let start ← here
  let day ← cut (within 2 1 31)
  if daysIn year month < day then refuse .outOfRange start
  return ⟨year, month, day⟩

/-- A fraction of a second; digits after the ninth are dropped. -/
def secondFraction : Scan Nat := do
  char '.'
  let first ← one isDigit
  let ds := (first :: (← takeWhile isDigit)).take 9
  return ofDigits ds * Nat.pow 10 (9 - ds.length)

def partialTime : Scan Time := do
  let hour ← within 2 0 23
  char ':'
  cut do
    let minute ← within 2 0 59
    char ':'
    let second ← within 2 0 60
    return ⟨hour, minute, second, (← attempt secondFraction).getD 0⟩

def zone : Scan Zone :=
  label "time offset" <|
  orElse
    (do
      let _ ← one fun c => c == 'Z' || c == 'z'
      return .utc)
    (do
      let c ← one fun c => c == '+' || c == '-'
      let minutes ← cut do
        let hour ← within 2 0 23
        char ':'
        return 60 * hour + (← within 2 0 59)
      return .offset (if c == '-' then -(minutes : Int) else minutes))

/-- A time after a date, with an optional zone. -/
def timeOfDay : Scan String := do
  let _ ← one fun c => c == 'T' || c == 't' || c == ' '
  let time ← partialTime
  match ← attempt zone with
  | some z => return "T" ++ time.text ++ z.text
  | none => return "T" ++ time.text

/-- A date, a time or both. -/
def dateTime : Scan String :=
  orElse
    (label "date-time" do
      let date ← fullDate
      return date.text ++ (← attempt timeOfDay).getD "")
    (label "time" do return (← partialTime).text)

end SwitchLint.Toml.Grammar
