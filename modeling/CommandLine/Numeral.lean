import CommandLine.Kind
import CommandLine.Text.Blank

/-!
# Integer literals

A literal is a run of blanks, a sign or none, and digits: hexadecimal after `0x` or `0X`, octal
after a leading `0`, decimal otherwise. Its magnitude stays below `2 ^ 64`. `read?` gives the
value of a literal; `Number.read?` narrows it to an integer type. `decimal` is the text of an
integer in base ten.
-/

namespace CommandLine.Numeral

/-- The value of a digit in a base up to sixteen; letters count in either case. -/
def digit? (base : Nat) (c : Char) : Option Nat :=
  let value? :=
    if '0' ≤ c ∧ c ≤ '9' then some (c.toNat - '0'.toNat)
    else if 'a' ≤ c ∧ c ≤ 'f' then some (c.toNat - 'a'.toNat + 10)
    else if 'A' ≤ c ∧ c ≤ 'F' then some (c.toNat - 'A'.toNat + 10)
    else none
  value?.filter (· < base)

/-- Reads digits onto a value already read, most significant digit first. -/
def digitsFrom? (base acc : Nat) : List Char → Option Nat
  | [] => some acc
  | c :: cs => (digit? base c).bind fun d => digitsFrom? base (acc * base + d) cs

/-- The value of one or more digits. -/
def digits? (base : Nat) : List Char → Option Nat
  | [] => none
  | c :: cs => digitsFrom? base 0 (c :: cs)

/-- Whether a literal is negative, and what follows its sign. -/
def splitSign : List Char → Bool × List Char
  | '-' :: cs => (true, cs)
  | '+' :: cs => (false, cs)
  | cs => (false, cs)

/-- The base an unsigned literal is written in, and its digits. -/
def splitBase : List Char → Nat × List Char
  | '0' :: 'x' :: cs => (16, cs)
  | '0' :: 'X' :: cs => (16, cs)
  | '0' :: c :: cs => (8, c :: cs)
  | cs => (10, cs)

/-- The magnitudes of literals stay below this bound. -/
def magnitudeBound : Nat := Nat.pow 2 64

/-- The magnitude of an unsigned literal. -/
def magnitude? (cs : List Char) : Option Nat :=
  let (base, digits) := splitBase cs
  (digits? base digits).filter (· < magnitudeBound)

/-- The value of an integer literal. -/
def read? (token : String) : Option Int :=
  let (negative, unsigned) := splitSign (token.toList.dropWhile Text.isBlank)
  (magnitude? unsigned).map fun m => if negative then -(m : Int) else (m : Int)

/-- The decimal text of a natural number, without leading zeros. -/
def decimalNat (n : Nat) : List Char :=
  Nat.toDigits 10 n

/-- The decimal text of an integer. -/
def decimal (n : Int) : String :=
  String.ofList (if n < 0 then '-' :: decimalNat n.natAbs else decimalNat n.natAbs)

end CommandLine.Numeral

namespace CommandLine.Number

/-- The number of a type that an integer literal stands for. -/
def read? (t : IntKind) (token : String) : Option (Number t) :=
  (Numeral.read? token).bind (ofInt? t)

end CommandLine.Number
