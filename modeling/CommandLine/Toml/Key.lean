import CommandLine.Toml.Text

/-!
# Keys

A key is one or more names with dots between them; all but the last lead through tables.
-/

namespace CommandLine.Toml

open Reader

/-- A name, and the tables that lead to it. -/
structure Key where
  path : List String
  name : String
  deriving DecidableEq

/-- A character of a name without quotes. -/
def isBareChar (c : Char) : Bool := c.isAlphanum || c == '_' || c == '-'

/-- One name. -/
def simpleKey : Reader String :=
  quoted <|> (do return String.ofList (← run1 isBareChar))

/-- Values nest, and keys have parts, fewer times than this. -/
def depthLimit : Nat := 80

/-- A key, with blanks around its names. -/
def key : Reader Key := do
  let names ← separated (do blanks; let name ← simpleKey; blanks; return name) (char '.')
  match names.reverse with
  | [] => refuse
  | name :: path =>
    if names.length < depthLimit then return ⟨path.reverse, name⟩ else refuse

end CommandLine.Toml
