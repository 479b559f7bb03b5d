import CommandLine.Config
import CommandLine.ErrorSlot
import CommandLine.Handle
import CommandLine.NameTable

/-!
# Registries

A registry holds what a program declares: the flags of its global scope, its subcommands with
their scopes, and the limits. It remembers the subcommand that the command line selects, whether
it has parsed, and its last failure.
-/

namespace CommandLine

/-- The command line of a program, as declared and as far as it is read. -/
structure Registry where
  /-- The number that tells this registry's handles from others'. -/
  id : Nat
  name : Option String
  description : Option String
  config : Config
  global : Scope := {}
  subcommands : List Subcommand := []
  /-- The numbers of the subcommands by name. -/
  names : NameTable := .empty config.hashBuckets
  /-- The number of the selected subcommand. -/
  active : Option Nat := none
  /-- The help flags that the registry declares by itself. -/
  helpFlags : List (FlagHandle .bool) := []
  errors : ErrorSlot := {}
  parsed : Bool := false

namespace Registry

/-- The program's name in texts; a program without one has a placeholder. -/
def programName (r : Registry) : String := r.name.getD "(*.*)"

/-- The number of a subcommand. -/
def slot? (r : Registry) (name : String) : Option Nat := r.names.find? name

/-- The scope that a handle or the command line speaks of. -/
def scope (r : Registry) : ScopeId → Except Error Scope
  | .global => .ok r.global
  | .subcommand slot =>
    match r.subcommands[slot]? with
    | some sub => .ok sub.scope
    | none => .error (.internal s!"subcommand slot {slot}")

/-- Replaces a scope. -/
def setScope (r : Registry) (scope : Scope) : ScopeId → Registry
  | .global => { r with global := scope }
  | .subcommand slot =>
    { r with subcommands := r.subcommands.modify slot ({ · with scope := scope }) }

/-- The scope that a declaration names: the global one, or that of a subcommand. -/
def scopeOf (r : Registry) : Option String → Except Error ScopeId
  | none => .ok .global
  | some name =>
    match r.slot? name with
    | some slot => .ok (.subcommand slot)
    | none => .error (.unknownSubcommand name)

/-- The selected subcommand. -/
def activeSubcommand (r : Registry) : Option Subcommand :=
  r.active.bind (r.subcommands[·]?)

/-- The scope of the selected subcommand, or else the global one. -/
def activeScope (r : Registry) : Scope :=
  (r.activeSubcommand.map (·.scope)).getD r.global

/-- Selects a subcommand: its number is kept, and it is marked. -/
def activate (r : Registry) (slot : Nat) : Registry :=
  { r with
    active := some slot
    subcommands := r.subcommands.modify slot ({ · with isActive := true }) }

/-- Whether the subcommand of a number is marked as selected. -/
def isSelected (r : Registry) (slot : Nat) : Bool := r.subcommands[slot]?.any (·.isActive)

/-- Fails, and keeps the failure as the last one. -/
def fail {α : Type} (r : Registry) (e : Error) : Registry × Except Error α :=
  ({ r with errors := r.errors.record e }, .error e)

/-! ## The last failure -/

/-- Reads the message of the last failure. -/
def lastError (r : Registry) : Option String × Registry :=
  let (text, errors) := r.errors.message
  (text, { r with errors := errors })

/-- The kind of the last failure. -/
def lastErrorKind (r : Registry) : Option ErrorKind := r.errors.kind

/-- Forgets the last failure. -/
def clearError (r : Registry) : Registry := { r with errors := r.errors.clear }

end Registry

end CommandLine
