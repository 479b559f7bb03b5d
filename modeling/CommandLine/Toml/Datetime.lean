import CommandLine.Numeral
import CommandLine.Toml.Reader

/-!
# Dates and times

A date, a time of day, or both, with an offset from universal time or without. Fractions of a
second count to nine places.
-/

namespace CommandLine.Toml

open Reader

/-- A day of the calendar. -/
structure Date where
  year : Nat
  month : Nat
  day : Nat
  deriving DecidableEq

/-- A time of day; the second may be a leap second. -/
structure Time where
  hour : Nat
  minute : Nat
  second : Nat
  nanosecond : Nat
  deriving DecidableEq

/-- The distance from universal time. -/
inductive Offset where
  | zulu
  | minutes (behind : Bool) (count : Nat)
  deriving DecidableEq

/-- A date, a time of day, or both. -/
inductive Datetime where
  | date (d : Date)
  | time (t : Time)
  | moment (d : Date) (t : Time) (offset : Option Offset)
  deriving DecidableEq

/-- The name of the entry by which a table stands for a date or time. -/
def Datetime.entryName : String := "$__toml_private_datetime"

/-! ## Writing -/

/-- A number with leading zeros up to a width. -/
def zeroPadded (width n : Nat) : List Char :=
  let digits := Numeral.decimalNat n
  List.replicate (width - digits.length) '0' ++ digits

namespace Date

/-- The date as year, month and day. -/
def text (d : Date) : List Char :=
  zeroPadded 4 d.year ++ '-' :: zeroPadded 2 d.month ++ '-' :: zeroPadded 2 d.day

/-- The number of days in a month. -/
def daysIn (year month : Nat) : Nat :=
  let leap := year % 4 == 0 && (year % 100 != 0 || year % 400 == 0)
  match month with
  | 2 => if leap then 29 else 28
  | 4 | 6 | 9 | 11 => 30
  | _ => 31

/-- Whether the calendar has the day. -/
def isValid (d : Date) : Bool :=
  1 ≤ d.month && d.month ≤ 12 && 1 ≤ d.day && d.day ≤ daysIn d.year d.month

end Date

/-- The time of day, with the places of the second that are not zero. -/
def Time.text (t : Time) : List Char :=
  let fraction := ((zeroPadded 9 t.nanosecond).reverse.dropWhile (· == '0')).reverse
  zeroPadded 2 t.hour ++ ':' :: zeroPadded 2 t.minute ++ ':' :: zeroPadded 2 t.second ++
    (if fraction.isEmpty then [] else '.' :: fraction)

/-- The offset, in hours and minutes. -/
def Offset.text : Offset → List Char
  | .zulu => ['Z']
  | .minutes behind count =>
    (if behind && count != 0 then '-' else '+') ::
      (zeroPadded 2 (count / 60) ++ ':' :: zeroPadded 2 (count % 60))

/-- The text of a date or time. -/
def Datetime.text : Datetime → String
  | .date d => String.ofList d.text
  | .time t => String.ofList t.text
  | .moment d t offset =>
    String.ofList (d.text ++ 'T' :: t.text ++ (offset.map Offset.text).getD [])

/-! ## Reading -/

/-- A number of a given count of digits. -/
def fixedDigits (count : Nat) : Reader Nat := go count 0
where
  /-- Reads digits onto a value already read. -/
  go : Nat → Nat → Reader Nat
    | 0, acc => return acc
    | n + 1, acc => do
      let c ← satisfy Char.isDigit
      go n (acc * 10 + (c.toNat - '0'.toNat))

/-- A date of the calendar. -/
def date : Reader Date := do
  let year ← fixedDigits 4
  char '-'
  let month ← fixedDigits 2
  char '-'
  let day ← fixedDigits 2
  let d : Date := ⟨year, month, day⟩
  if d.isValid then return d else refuse

/-- The places of a second after the point; those beyond nine are dropped. -/
def nanoseconds : Reader Nat := do
  char '.'
  let digits := (← run1 Char.isDigit).take 9
  ofOption (Numeral.digits? 10 (digits ++ List.replicate (9 - digits.length) '0'))

/-- A time of day. -/
def time : Reader Time := do
  let hour ← fixedDigits 2
  char ':'
  let minute ← fixedDigits 2
  char ':'
  let second ← fixedDigits 2
  let fraction ← option nanoseconds
  if hour ≤ 23 ∧ minute ≤ 59 ∧ second ≤ 60 then
    return ⟨hour, minute, second, fraction.getD 0⟩
  else refuse

/-- An offset from universal time. -/
def offset : Reader Offset := do
  let sign ← satisfy fun c => c == 'Z' || c == 'z' || c == '+' || c == '-'
  if sign == 'Z' || sign == 'z' then return .zulu
  let hours ← fixedDigits 2
  char ':'
  let minutes ← fixedDigits 2
  if hours ≤ 23 ∧ minutes ≤ 59 then return .minutes (sign == '-') (hours * 60 + minutes)
  else refuse

/-- A time of day after the date it belongs to. -/
def timeOfDate : Reader (Time × Option Offset) := do
  let _ ← satisfy fun c => c == 'T' || c == 't' || c == ' '
  let t ← time
  return (t, ← option offset)

/-- A date, a time of day, or both. -/
def datetime : Reader Datetime :=
  (do
    let d ← date
    match ← option timeOfDate with
    | some (t, o) => return .moment d t o
    | none => return .date d) <|>
  (do return .time (← time))

/-- The date or time that a text is. -/
def Datetime.ofText? (text : String) : Option Datetime :=
  whole? datetime text

end CommandLine.Toml
