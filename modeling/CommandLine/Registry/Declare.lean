import CommandLine.Registry.Basic

/-!
# Declarations

Each `add…` function makes a declaration or gives the reason why it cannot be made. The
`declare…` functions around them hand out the result, and remember the first failure until its
message is read. Every scope starts with a help flag of its own. Flags and positional arguments
are checked before anything is changed; a subcommand changes the registry step by step.

A new registry asks for room for the table of its names, and a positional argument for all the
values that it may have. `startWithRoom` and `declarePositionalWithRoom` are stopped if there cannot
be as much; otherwise they are `start` and `declarePositional`.
-/

namespace CommandLine.Registry

/-- The result of a declaration on the registry; a failure is kept in the error slot unless an
earlier one is there unread. -/
def declared {α : Type} (r : Registry) :
    Except Error (Registry × α) → Registry × Except Error α
  | .ok (r', a) => (r', .ok a)
  | .error e => ({ r with errors := r.errors.recordFirst e }, .error e)

/-! ## Flags -/

/-- Adds a flag to a scope and gives its place. -/
def addFlag (r : Registry) (flag : Flag) (scope? : Option String) :
    Except Error (Registry × ScopeId × Nat) :=
  if !flag.isNamed then .error (.internal "flag declared without a name")
  else do
    let id ← r.scopeOf scope?
    let scope ← r.scope id
    let (scope', index) ← scope.addFlag flag r.config.maxFlags
    return (r.setScope scope' id, id, index)

/-- Declares a flag with a single value. An empty long name is no name. -/
def declareFlag (r : Registry) (long : String) (short : Option Char) (k : Kind)
    (default : k.Carrier) (description : String) (scope? : Option String) :
    Registry × Except Error (FlagHandle k) :=
  r.declared <| (r.addFlag (.scalar long short k default description) scope?).map
    fun (r', id, index) => (r', ⟨r.id, id, index⟩)

/-- Declares a flag that collects a list. An empty long name is no name. -/
def declareListFlag (r : Registry) (long : String) (short : Option Char) (k : Kind)
    (description : String) (scope? : Option String) :
    Registry × Except Error (ListHandle k) :=
  r.declared <| (r.addFlag (.list long short k description) scope?).map
    fun (r', id, index) => (r', ⟨r.id, id, index⟩)

/-- Declares the help flag of a scope. A scope without room for it has none. -/
def declareHelp (r : Registry) (scope? : Option String) : Registry :=
  match r.declareFlag "help" none .bool false "Print this help message" scope? with
  | (r', .ok handle) => { r' with helpFlags := r'.helpFlags ++ [handle] }
  | (r', .error _) => r'

/-! ## Subcommands and positional arguments -/

/-- Adds a subcommand, with its help flag, and gives its number. The name goes into the table of
names before the number that it gets there is checked. -/
def addSubcommand (r : Registry) (name description : String) :
    Registry × Except Error SubcommandHandle :=
  let limit := r.config.maxSubcommands
  if limit ≤ r.subcommands.length then (r, .error (.full "subcommands" limit))
  else
    match r.names.insert? name with
    | none => (r, .error (.duplicateSubcommand name))
    | some (slot, names) =>
      if slot ≠ r.subcommands.length then
        ({ r with names := names }, .error (.internal s!"name index slot {slot} out of step"))
      else
        let added : Registry := { r with
          names := names
          subcommands := r.subcommands ++ [{ name := name, description := description }] }
        (added.declareHelp (some name), .ok ⟨r.id, slot⟩)

/-- Declares a subcommand with its help flag. -/
def declareSubcommand (r : Registry) (name description : String) :
    Registry × Except Error SubcommandHandle :=
  let (r', result) := r.addSubcommand name description
  r'.declared (result.map (r', ·))

/-- Names the positional argument of a scope. -/
def addPositional (r : Registry) (name description : String) (scope? : Option String) :
    Except Error (Registry × PositionalHandle) := do
  let id ← r.scopeOf scope?
  let scope ← r.scope id
  return (r.setScope (scope.namePositional name description) id, ⟨r.id, id⟩)

/-- Declares the positional argument of a scope. -/
def declarePositional (r : Registry) (name description : String) (scope? : Option String) :
    Registry × Except Error PositionalHandle :=
  r.declared (r.addPositional name description scope?)

/-- Declares the positional argument of a scope, with room for its values. The scope is looked up
before any room is asked for. -/
def declarePositionalWithRoom (r : Registry) (name description : String)
    (scope? : Option String) : Except Stop (Registry × Except Error PositionalHandle) :=
  match r.scopeOf scope? >>= fun id => (r.scope id).map (id, ·) with
  | .error e => .ok (r.declared (.error e))
  | .ok (id, scope) => do
    let scope' ← scope.namePositionalWithRoom name description r.config.maxPositionals
    return r.declared (.ok (r.setScope scope' id, ⟨r.id, id⟩))

/-! ## A new registry -/

/-- A registry under a fresh number, with the help flag of its global scope. An empty name or
description is none. -/
def start (id : Nat) (name description : String) (config : Config) : Registry :=
  let fresh : Registry := {
    id := id
    name := nonEmpty? name
    description := nonEmpty? description
    config := config }
  fresh.declareHelp none

/-- A registry under a fresh number, with room for the table of its names. -/
def startWithRoom (id : Nat) (name description : String) (config : Config) :
    Except Stop Registry :=
  (NameTable.withRoom config.hashBuckets).map fun names =>
    let fresh : Registry := {
      id := id
      name := nonEmpty? name
      description := nonEmpty? description
      config := config
      names := names }
    fresh.declareHelp none

end CommandLine.Registry
