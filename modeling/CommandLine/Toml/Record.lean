import CommandLine.Toml.Value

/-!
# Records

A record with fixed fields is written as a table, where fields of other names are passed over,
or as an array of its fields in their order, where fields at the end may be left out. A date
counts as a table without any of the fields.
-/

namespace CommandLine.Toml

/-- The fields of a record, by name or in order. -/
inductive Record where
  | named (entries : List (String × Value))
  | ordered (items : List Value)

namespace Record

/-- The record that a value holds. -/
def ofValue? : Value → Option Record
  | .table entries => some (.named entries)
  | .array items => some (.ordered items)
  | .datetime _ => some (.named [])
  | _ => none

/-- The field of a name, which comes at a position. -/
def field? (r : Record) (position : Nat) (name : String) : Option Value :=
  match r with
  | .named entries => entries.lookup name
  | .ordered items => items[position]?

variable {α : Type}

/-- A field that must be there. -/
def required (r : Record) (position : Nat) (name : String) (decode : Value → Option α) :
    Option α :=
  (r.field? position name).bind decode

/-- A field that has a value when it is left out. -/
def defaulted (r : Record) (position : Nat) (name : String) (decode : Value → Option α)
    (default : α) : Option α :=
  match r.field? position name with
  | none => some default
  | some v => decode v

/-- A field that may be left out. -/
def optional (r : Record) (position : Nat) (name : String) (decode : Value → Option α) :
    Option (Option α) :=
  match r.field? position name with
  | none => some none
  | some v => (decode v).map some

end Record

/-- A list of values of one form. -/
def Value.listOf? {α : Type} (decode : Value → Option α) (v : Value) : Option (List α) :=
  v.array?.bind fun items => items.mapM decode

/-- An integer that is not negative. -/
def Value.size? (v : Value) : Option Nat :=
  v.integer?.bind fun n => if 0 ≤ n then some n.toNat else none

/-- A string of a single character. -/
def Value.char? (v : Value) : Option Char :=
  v.string?.bind fun text =>
    match text.toList with
    | [c] => some c
    | _ => none

/-- Whether a value has no parts, for values that could have some. -/
def Value.isEmptyContainer : Value → Bool
  | .array items => items.isEmpty
  | .table entries => entries.isEmpty
  | _ => false

/-- The name of one of several cases: a string, or a table with the name as its only key over an
empty table or array. -/
def Value.caseName? : Value → Option String
  | .string text => some text
  | .table [(name, v)] => if v.isEmptyContainer then some name else none
  | _ => none

end CommandLine.Toml
