import CommandLine.Registry.Declare

/-!
# Reading values back

Values are read through handles. A handle is good only for the registry that gave it; reading
changes nothing, the last failure included.
-/

namespace CommandLine.Registry

/-- Refuses a handle that another registry gave. -/
def checkOwner (r : Registry) (owner : Nat) : Except Error Unit :=
  if owner = r.id then .ok () else .error (.internal "handle from another registry")

/-- The flag at a place. -/
def flagAt (r : Registry) (owner : Nat) (id : ScopeId) (index : Nat) : Except Error Flag := do
  r.checkOwner owner
  let scope ← r.scope id
  match scope.flags[index]? with
  | some flag => return flag
  | none => throw (.internal s!"flag index {index}")

/-- A single value of a flag, at the kind its reader expects. -/
def scalarOf (flag : Flag) (k : Kind) (v : Value) : Except Error k.Carrier :=
  match v.scalar? k with
  | some a => .ok a
  | none => .error (.internal (flag.displayName ++ " does not hold a " ++ k.name))

/-- The current value of a flag. -/
def get {k : Kind} (r : Registry) (h : FlagHandle k) : Except Error k.Carrier := do
  let flag ← r.flagAt h.registry h.scope h.index
  scalarOf flag k flag.value

/-- The default of a flag. -/
def defaultOf {k : Kind} (r : Registry) (h : FlagHandle k) : Except Error k.Carrier := do
  let flag ← r.flagAt h.registry h.scope h.index
  scalarOf flag k flag.default

/-- The list of a flag. -/
def list {k : Kind} (r : Registry) (h : ListHandle k) : Except Error (List k.Carrier) := do
  let flag ← r.flagAt h.registry h.scope h.index
  match flag.value.list? k with
  | some vs => return vs
  | none => throw (.internal (flag.displayName ++ " is not a list of " ++ k.name))

/-- The positional values of a scope. -/
def positionals (r : Registry) (h : PositionalHandle) : Except Error (List String) := do
  r.checkOwner h.registry
  let scope ← r.scope h.scope
  return scope.positional.values

/-- Whether the command line selected the subcommand. -/
def isActive (r : Registry) (h : SubcommandHandle) : Bool :=
  h.registry == r.id && r.isSelected h.slot

/-- Whether a help flag was given. -/
def isHelpRequested (r : Registry) : Bool :=
  r.helpFlags.any fun h =>
    match r.get h with
    | .ok given => given
    | .error _ => false

end CommandLine.Registry
