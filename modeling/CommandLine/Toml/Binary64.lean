import CommandLine.Numeral

/-!
# Floating-point numbers

A decimal fraction is rounded to the nearest number with a 53-bit significand, a tie to the even
one. A number is written in the fewest decimal digits that round back to it; of several such
texts the nearest counts, and the greater one of two that are equally near.
-/

namespace CommandLine.Toml

/-- A double-precision number. A finite one is `significand * 2 ^ exponent`. -/
inductive Binary64 where
  | nan
  | infinite (negative : Bool)
  | finite (negative : Bool) (significand : Nat) (exponent : Int)
  deriving DecidableEq

namespace Binary64

/-- The exponent of the least positive number. -/
def leastExponent : Int := -1074

/-- The greatest exponent of a number whose significand has all 53 bits. -/
def greatestExponent : Int := 971

/-- A quotient rounded to the nearest integer, a tie to the even one. -/
def roundDiv (num den : Nat) : Nat :=
  let q := num / den
  let twice := 2 * (num % den)
  if den < twice || (twice == den && q % 2 == 1) then q + 1 else q

/-- The exponent `e` with `2 ^ e ≤ num / den < 2 ^ (e + 1)`. -/
def binaryExponent (num den : Nat) : Int :=
  let e : Int := (num.log2 : Int) - den.log2
  if den * Nat.pow 2 e.toNat ≤ num * Nat.pow 2 (-e).toNat then e else e - 1

/-- The number nearest to a positive quotient. -/
def ofRatio (negative : Bool) (num den : Nat) : Binary64 :=
  let q := max (binaryExponent num den - 52) leastExponent
  let m := roundDiv (num * Nat.pow 2 (-q).toNat) (den * Nat.pow 2 q.toNat)
  let (m, q) := if m = Nat.pow 2 53 then (Nat.pow 2 52, q + 1) else (m, q)
  if greatestExponent < q then .infinite negative else .finite negative m q

/-- The number nearest to `digits * 10 ^ exponent`. Far beyond the range the power of ten is not
computed. -/
def ofDecimal (negative : Bool) (digits : Nat) (exponent : Int) : Binary64 :=
  let magnitude := exponent + (Numeral.decimalNat digits).length
  if digits = 0 ∨ magnitude < -330 then .finite negative 0 leastExponent
  else if 310 < magnitude then .infinite negative
  else ofRatio negative (digits * Nat.pow 10 exponent.toNat) (Nat.pow 10 (-exponent).toNat)

/-- The power of ten above a positive quotient: `10 ^ (p - 1) ≤ num / den < 10 ^ p`. -/
def decimalMagnitude (num den : Nat) : Int :=
  if den ≤ num then (Numeral.decimalNat (num / den)).length
  else 1 - (((List.range 400).find? fun k => den ≤ num * Nat.pow 10 k).getD 400 : Nat)

/-- The decimal with a given number of digits that rounds to a positive number, if there is one:
digits and exponent. -/
def decimalOf? (significand : Nat) (exponent : Int) (count : Nat) : Option (Nat × Int) :=
  let unitNum := Nat.pow 2 (exponent - 2).toNat
  let unitDen := Nat.pow 2 (2 - exponent).toNat
  let value := 4 * significand
  let low := value - (if significand = Nat.pow 2 52 ∧ leastExponent < exponent then 1 else 2)
  let high := value + 2
  let grid := decimalMagnitude (value * unitNum) unitDen - count
  let ofDigits (d : Nat) : Nat := d * Nat.pow 10 grid.toNat * unitDen
  let ofUnits (u : Nat) : Nat := u * unitNum * Nat.pow 10 (-grid).toNat
  let below := ofUnits value / ofDigits 1
  let inside (d : Nat) : Bool :=
    if significand % 2 = 0 then ofUnits low ≤ ofDigits d && ofDigits d ≤ ofUnits high
    else ofUnits low < ofDigits d && ofDigits d < ofUnits high
  let aboveNearer := ofDigits (below + 1) - ofUnits value ≤ ofUnits value - ofDigits below
  -- One digit carries into two when the value lies just below a power of ten.
  let carried (d : Nat) : Nat × Int := if d = 10 then (1, grid + 1) else (d, grid)
  match inside below, inside (below + 1) with
  | true, true => some (carried (if aboveNearer then below + 1 else below))
  | true, false => some (carried below)
  | false, true => some (carried (below + 1))
  | false, false => none

/-- The shortest decimal that rounds to a positive number: digits and exponent. -/
def shortest (significand : Nat) (exponent : Int) : Nat × Int :=
  ((List.range 17).findSome? fun n => decimalOf? significand exponent (n + 1)).getD
    (significand * Nat.pow 2 exponent.toNat, 0)

/-- A decimal in positional notation, with a digit on either side of the point. -/
def positional (digits : Nat) (exponent : Int) : List Char :=
  let cs := Numeral.decimalNat digits
  if 0 ≤ exponent then cs ++ List.replicate exponent.toNat '0' ++ ['.', '0']
  else
    let places := (-exponent).toNat
    let padded := List.replicate (places + 1 - cs.length) '0' ++ cs
    padded.take (padded.length - places) ++ '.' :: padded.drop (padded.length - places)

/-- The text of a number; the sign of a number that is none is not shown. -/
def text : Binary64 → String
  | .nan => "nan"
  | .infinite negative => if negative then "-inf" else "inf"
  | .finite negative significand exponent =>
    let digits :=
      if significand = 0 then positional 0 0
      else
        let (d, e) := shortest significand exponent
        positional d e
    String.ofList (if negative then '-' :: digits else digits)

end Binary64

end CommandLine.Toml
