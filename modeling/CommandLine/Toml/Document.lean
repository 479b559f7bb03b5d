import CommandLine.Toml.Number
import CommandLine.Toml.Table

/-!
# Documents

A document is a list of lines: headers of tables and of elements of arrays of tables, and keys
with values that belong to the table of the last header. `Document.read?` gives its table.
-/

namespace CommandLine.Toml

open Reader

/-! ## Values -/

/-- A boolean. -/
def boolean : Reader Value :=
  (do exactly ['t', 'r', 'u', 'e']; return .boolean true) <|>
    (do exactly ['f', 'a', 'l', 's', 'e']; return .boolean false)

/-- An array over any number of lines; a comma may follow its last item. -/
def array (item : Reader Value) : Reader Value := do
  char '['
  filler
  let items ← separated (do let v ← item; filler; return v) (do char ','; filler)
  if !items.isEmpty then
    let _ ← option (do char ','; filler)
  char ']'
  return .array items

/-- A key and its value. -/
def pair (item : Reader Value) : Reader (Key × Value) := do
  let k ← key
  char '='
  blanks
  return (k, ← item)

/-- A table on one line. -/
def inlineTable (item : Reader Value) : Reader Value := do
  char '\x7b'
  let pairs ← separated (do let p ← pair item; blanks; return p) (char ',')
  blanks
  char '\x7d'
  return .table (values (← ofOption (Entries.ofPairs? pairs)))

/-- A value without parts. -/
def scalar : Reader Value :=
  (do return .string (← string)) <|> boolean <|> (do return .datetime (← datetime)) <|> number

/-- A value whose arrays and inline tables nest at most to a depth. -/
def value : Nat → Reader Value
  | 0 => scalar
  | depth + 1 => scalar <|> array (value depth) <|> inlineTable (value depth)

/-! ## Lines -/

/-- What a line says. -/
inductive Line where
  | empty
  | header (key : Key)
  | element (key : Key)
  | pair (key : Key) (v : Value)

/-- A header of a table. -/
def header : Reader Line := do
  char '['
  let k ← key
  char ']'
  return .header k

/-- A header of an element of an array of tables. -/
def element : Reader Line := do
  exactly ['[', '[']
  let k ← key
  exactly [']', ']']
  return .element k

/-- One line, with its end. -/
def line : Reader Line := do
  blanks
  let said ← element <|> header <|>
    (do let (k, v) ← pair (value (depthLimit - 1)); return .pair k v) <|> return .empty
  lineEnd
  return said

/-- All lines of a document; a byte order mark may stand in front. -/
def lines : Reader (List Line) := do
  let _ ← option (char '\ufeff')
  many line

/-! ## Documents -/

namespace Document

/-- What the lines read so far have built, and the table they are in. -/
structure State where
  entries : Entries := []
  current : List String := []

/-- Adds a line. -/
def State.add (s : State) : Line → Option State
  | .empty => some s
  | .header k => (s.entries.openTable k).map (⟨·, k.path ++ [k.name]⟩)
  | .element k => (s.entries.openElement k).map (⟨·, k.path ++ [k.name]⟩)
  | .pair k v =>
    (s.entries.within s.current (·.insert k.path k.name v)).map (⟨·, s.current⟩)

/-- The table of a document. -/
def read? (text : String) : Option (List (String × Value)) := do
  let ls ← lines.whole? text
  let s ← ls.foldlM State.add {}
  return values s.entries

end Document

end CommandLine.Toml
