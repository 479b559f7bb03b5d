/-!
# Kinds of flag values

A flag holds truth values, integers of a fixed width, or text. `Kind` lists the ten kinds, and
`Kind.Carrier` is the type of the values of a kind.
-/

namespace CommandLine

/-- The integer types a flag can have: signed and unsigned, of 8 to 64 bits. -/
inductive IntKind where
  | i8
  | i16
  | i32
  | i64
  | u8
  | u16
  | u32
  | u64
  deriving DecidableEq

namespace IntKind

/-- The eight integer types, signed ones first, by width. -/
def all : List IntKind :=
  [.i8, .i16, .i32, .i64, .u8, .u16, .u32, .u64]

/-- The name under which a manifest writes the type. -/
def name : IntKind → String
  | .i8 => "i8"
  | .i16 => "i16"
  | .i32 => "i32"
  | .i64 => "i64"
  | .u8 => "u8"
  | .u16 => "u16"
  | .u32 => "u32"
  | .u64 => "u64"

/-- The least value of the type. -/
def least : IntKind → Int
  | .i8 => -128
  | .i16 => -32768
  | .i32 => -2147483648
  | .i64 => -9223372036854775808
  | .u8 | .u16 | .u32 | .u64 => 0

/-- The greatest value of the type. -/
def greatest : IntKind → Int
  | .i8 => 127
  | .i16 => 32767
  | .i32 => 2147483647
  | .i64 => 9223372036854775807
  | .u8 => 255
  | .u16 => 65535
  | .u32 => 4294967295
  | .u64 => 18446744073709551615

/-- The bytes of a value of the type. -/
def bytes : IntKind → Nat
  | .i8 | .u8 => 1
  | .i16 | .u16 => 2
  | .i32 | .u32 => 4
  | .i64 | .u64 => 8

theorem least_le_zero (t : IntKind) : t.least ≤ 0 := by cases t <;> decide

theorem zero_le_greatest (t : IntKind) : 0 ≤ t.greatest := by cases t <;> decide

end IntKind

/-- An integer in the range of a type. -/
structure Number (t : IntKind) where
  val : Int
  least_le : t.least ≤ val
  le_greatest : val ≤ t.greatest
  deriving DecidableEq

namespace Number

/-- Narrows an integer to a type; an integer out of range is refused. -/
def ofInt? (t : IntKind) (n : Int) : Option (Number t) :=
  if h : t.least ≤ n ∧ n ≤ t.greatest then some ⟨n, h.1, h.2⟩ else none

/-- The number zero, which every type has. -/
def zero (t : IntKind) : Number t :=
  ⟨0, t.least_le_zero, t.zero_le_greatest⟩

end Number

/-- What the values of a flag are, or the elements of its list. -/
inductive Kind where
  | bool
  | int (t : IntKind)
  | string
  deriving DecidableEq

namespace Kind

/-- The ten kinds. -/
def all : List Kind :=
  [.bool] ++ IntKind.all.map .int ++ [.string]

/-- The name under which a manifest writes the kind. -/
def name : Kind → String
  | .bool => "bool"
  | .int t => t.name
  | .string => "string"

/-- The kind of a given name. -/
def ofName? (text : String) : Option Kind :=
  all.find? (·.name == text)

/-- Whether the values are integers. -/
def isNumeric : Kind → Bool
  | .int _ => true
  | .bool | .string => false

/-- The type of the values of a kind. -/
@[reducible] def Carrier : Kind → Type
  | .bool => Bool
  | .int t => Number t
  | .string => String

instance (k : Kind) : DecidableEq k.Carrier :=
  match k with
  | .bool => inferInstanceAs (DecidableEq Bool)
  | .int t => inferInstanceAs (DecidableEq (Number t))
  | .string => inferInstanceAs (DecidableEq String)

/-- The value of a flag that is declared without one: false, zero or the empty text. -/
def zero : (k : Kind) → k.Carrier
  | .bool => false
  | .int t => Number.zero t
  | .string => ""

end Kind

end CommandLine
