import CommandLine.Json
import CommandLine.Registry.Basic

/-!
# Reports

A report shows the values that a registry holds: those of the global scope and, if one is
selected, those of the subcommand. Flags are listed by name in ascending order; of several flags
with one name the last declared counts.
-/

namespace CommandLine

/-- A single value in a report. -/
def Kind.toJson : (k : Kind) → k.Carrier → Json
  | .bool, b => .bool b
  | .int _, n => .int n.val
  | .string, text => .string text

/-- The value of a flag in a report. -/
def Value.toJson : Value → Json
  | .scalar k v => k.toJson v
  | .list l => .array (l.items.map l.kind.toJson)

namespace Report

/-- Puts a field into fields in ascending order of their names; a field of the same name is
replaced. -/
def insertField (name : String) (j : Json) : List (String × Json) → List (String × Json)
  | [] => [(name, j)]
  | (n, i) :: rest =>
    if name < n then (name, j) :: (n, i) :: rest
    else if name = n then (name, j) :: rest
    else (n, i) :: insertField name j rest

/-- The values of flags by name. -/
def flagFields (flags : List Flag) : List (String × Json) :=
  flags.foldl (fun fields flag => insertField flag.key flag.value.toJson fields) []

/-- The fields of a scope. -/
def scopeFields (s : Scope) : List (String × Json) :=
  [("args", .array (s.positional.values.map .string)), ("flags", .object (flagFields s.flags))]

/-- The report of a registry. -/
def ofRegistry (r : Registry) : Json :=
  .object [
    ("program", .string r.programName),
    ("global", .object (scopeFields r.global)),
    ("subcommand",
      match r.activeSubcommand with
      | some sub => .object (("name", .string sub.name) :: scopeFields sub.scope)
      | none => .null)]

end Report

/-- The text of the report of a registry, on one line if it is to be raw. -/
def Registry.report (r : Registry) (raw : Bool) : String :=
  if raw then (Report.ofRegistry r).compact else (Report.ofRegistry r).pretty

end CommandLine
