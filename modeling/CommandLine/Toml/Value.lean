import CommandLine.Toml.Binary64
import CommandLine.Toml.Datetime

/-!
# Values of a document

A value is a scalar, an array of values, or a table of values by name.
-/

namespace CommandLine.Toml

/-- A value in a document. -/
inductive Value where
  | string (text : String)
  | integer (n : Int)
  | float (x : Binary64)
  | boolean (b : Bool)
  | datetime (d : Datetime)
  | array (items : List Value)
  | table (entries : List (String × Value))

namespace Value

/-- The text of a string. -/
def string? : Value → Option String
  | .string text => some text
  | _ => none

/-- The value of an integer. -/
def integer? : Value → Option Int
  | .integer n => some n
  | _ => none

/-- The truth value of a boolean. -/
def boolean? : Value → Option Bool
  | .boolean b => some b
  | _ => none

/-- The items of an array. -/
def array? : Value → Option (List Value)
  | .array items => some items
  | _ => none

end Value

end CommandLine.Toml
