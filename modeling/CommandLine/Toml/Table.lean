import CommandLine.Toml.Key
import CommandLine.Toml.Value

/-!
# Tables under construction

A document builds its tables piece by piece. How a table came to be decides what may still be
added to it: a header opens a table once; a table that only leads to another may be opened later;
one that dotted keys made takes more dotted keys but no header. Values are never changed once
given. The header of a table decides its place among the entries around it.
-/

namespace CommandLine.Toml

/-- How a table came to be. -/
inductive Origin where
  /-- By a header of its own. -/
  | header
  /-- On the way to a table that has a header. -/
  | implied
  /-- On the way of a dotted key. -/
  | dotted
  deriving DecidableEq

/-- What stands under a name. -/
inductive Node where
  | leaf (v : Value)
  | table (origin : Origin) (entries : List (String × Node))
  /-- An array of tables: those that are finished, and the last one. -/
  | tables (front : List Value) (last : List (String × Node))

/-- Nodes by name, in the order of their coming. -/
abbrev Entries := List (String × Node)

mutual

/-- The value that a node stands for. -/
def Node.value : Node → Value
  | .leaf v => v
  | .table _ entries => .table (values entries)
  | .tables front last => .array (front ++ [.table (values last)])

/-- The values of entries. -/
def values : List (String × Node) → List (String × Value)
  | [] => []
  | (name, node) :: rest => (name, node.value) :: values rest

end

namespace Entries

/-- Changes what stands under a name, which may be nothing; the change may be refused. -/
def alter (name : String) (change : Option Node → Option Node) : Entries → Option Entries
  | [] => (change none).map fun node => [(name, node)]
  | (n, node) :: rest =>
    if n = name then (change (some node)).map fun node' => (n, node') :: rest
    else (alter name change rest).map ((n, node) :: ·)

/-- Changes the table at the end of a path. Tables missing on the way are implied, and in an
array of tables the way leads through the last one. -/
def within : List String → (Entries → Option Entries) → Entries → Option Entries
  | [], change, entries => change entries
  | name :: path, change, entries =>
    entries.alter name fun
      | none => (within path change []).map (.table .implied)
      | some (.leaf _) => none
      | some (.table origin sub) => (within path change sub).map (.table origin)
      | some (.tables front last) => (within path change last).map (.tables front)

/-- Puts a value under a dotted key. The tables on its way must not have a header, and the last
of them must come from dotted keys. -/
def insert : List String → String → Value → Entries → Option Entries
  | [], name, v, entries =>
    entries.alter name fun
      | none => some (.leaf v)
      | some _ => none
  | first :: path, name, v, entries =>
    entries.alter first fun
      | none => (insert path name v []).map (.table .dotted)
      | some (.table .dotted sub) => (insert path name v sub).map (.table .dotted)
      | some (.table .implied sub) =>
        if path.isEmpty then none else (insert path name v sub).map (.table .implied)
      | some (.tables front last) =>
        if path.isEmpty then none else (insert path name v last).map (.tables front)
      | some (.table .header _) => none
      | some (.leaf _) => none

/-- Opens the table of a header, behind the entries that are already there. -/
def openTable (key : Key) (entries : Entries) : Option Entries :=
  entries.within key.path fun parent =>
    match parent.lookup key.name with
    | none => some (parent ++ [(key.name, .table .header [])])
    | some (.table .implied sub) =>
      some (parent.filter (·.1 != key.name) ++ [(key.name, .table .header sub)])
    | some _ => none

/-- Opens a new table at the end of an array of tables. -/
def openElement (key : Key) (entries : Entries) : Option Entries :=
  entries.within key.path fun parent =>
    parent.alter key.name fun
      | none => some (.tables [] [])
      | some (.tables front last) => some (.tables (front ++ [.table (values last)]) [])
      | some _ => none

/-- The entries of an inline table. -/
def ofPairs? (pairs : List (Key × Value)) : Option Entries :=
  pairs.foldlM (fun entries (key, v) => entries.insert key.path key.name v) []

end Entries

end CommandLine.Toml
