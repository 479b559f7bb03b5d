import CommandLine.Toml.Value

/-!
# Numbers

Integers are decimal with a sign, or hexadecimal, octal or binary behind `0x`, `0o` or `0b`, and
fit in 64 bits with a sign. Floats have a fraction, an exponent or both; `inf` and `nan` are
floats too. An underscore may stand between two digits, and a decimal number has no leading
zero.
-/

namespace CommandLine.Toml

open Reader

/-- Whether every underscore in a run of digits stands between two digits. -/
def isWellSpaced : List Char → Bool
  | [] => false
  | '_' :: _ => false
  | [_] => true
  | _ :: '_' :: rest => isWellSpaced rest
  | _ :: rest => isWellSpaced rest

/-- Digits of a base, with underscores between them left out. -/
def digitRun (base : Nat) : Reader (List Char) := do
  let cs ← run1 fun c => c == '_' || (Numeral.digit? base c).isSome
  if isWellSpaced cs then return cs.filter (· != '_') else refuse

/-- A sign, and whether it is negative. -/
def sign : Reader Bool := do
  return (← satisfy fun c => c == '+' || c == '-') == '-'

/-- An integer in the 64-bit range. -/
def integerOf (n : Int) : Reader Value :=
  if (Number.ofInt? .i64 n).isSome then return .integer n else refuse

/-- An integer behind the mark of its base. -/
def basedInteger (mark : Char) (base : Nat) : Reader Value := do
  exactly ['0', mark]
  integerOf (← ofOption (Numeral.digits? base (← digitRun base)))

/-- The exponent of a float. -/
def exponent : Reader Int := do
  let _ ← satisfy fun c => c == 'e' || c == 'E'
  let negative := (← option sign).getD false
  let n ← ofOption (Numeral.digits? 10 (← digitRun 10))
  return if negative then -(n : Int) else n

/-- The digits of a float after the point. -/
def fraction : Reader (List Char) := do
  char '.'
  digitRun 10

/-- A float from its parts. A number beyond the greatest float is refused; one beyond the least
is negative infinity. -/
def floatOf (negative : Bool) (whole places : List Char) (e : Int) : Reader Value := do
  let digits ← ofOption (Numeral.digits? 10 (whole ++ places))
  match Binary64.ofDecimal negative digits (e - places.length) with
  | .infinite false => refuse
  | x => return .float x

/-- A decimal number. -/
def decimalNumber : Reader Value := do
  let negative := (← option sign).getD false
  let whole ← digitRun 10
  if whole.head? == some '0' && 1 < whole.length then refuse
  let places ← option fraction
  let power ← option exponent
  if places.isNone && power.isNone then
    let n ← ofOption (Numeral.digits? 10 whole)
    integerOf (if negative then -(n : Int) else n)
  else floatOf negative whole (places.getD []) (power.getD 0)

/-- The floats that have no digits. -/
def specialFloat : Reader Value := do
  let negative := (← option sign).getD false
  (do exactly ['i', 'n', 'f']; return .float (.infinite negative)) <|>
    (do exactly ['n', 'a', 'n']; return .float .nan)

/-- A number of any form. -/
def number : Reader Value :=
  basedInteger 'x' 16 <|> basedInteger 'o' 8 <|> basedInteger 'b' 2 <|> specialFloat <|>
    decimalNumber

end CommandLine.Toml
