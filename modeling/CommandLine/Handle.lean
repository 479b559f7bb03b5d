import CommandLine.Scope

/-!
# Handles

A declaration gives a handle: the number of the registry that gave it, the place of the thing
declared, and, for a flag, the kind of its values in the type.
-/

namespace CommandLine

/-- Where to read the single value of a flag. -/
structure FlagHandle (k : Kind) where
  registry : Nat
  scope : ScopeId
  index : Nat
  deriving DecidableEq

/-- Where to read the list of a flag. -/
structure ListHandle (k : Kind) where
  registry : Nat
  scope : ScopeId
  index : Nat
  deriving DecidableEq

/-- A declared subcommand. -/
structure SubcommandHandle where
  registry : Nat
  slot : Nat
  deriving DecidableEq

/-- Where to read the positional values of a scope. -/
structure PositionalHandle where
  registry : Nat
  scope : ScopeId
  deriving DecidableEq

/-- The text of a scope in a handle. -/
def ScopeId.describe : ScopeId → String
  | .global => "Global"
  | .subcommand slot => s!"Subcommand({slot})"

/-- The text of a handle; it does not show the registry. -/
def FlagHandle.describe {k : Kind} (h : FlagHandle k) : String :=
  "FlagHandle \x7b scope: " ++ h.scope.describe ++ s!", index: {h.index} " ++ "\x7d"

/-- The text of a handle; it does not show the registry. -/
def ListHandle.describe {k : Kind} (h : ListHandle k) : String :=
  "ListHandle \x7b scope: " ++ h.scope.describe ++ s!", index: {h.index} " ++ "\x7d"

end CommandLine
