import CommandLine.Help
import CommandLine.Registry.Parse
import CommandLine.Registry.Read

/-!
# Sessions

A session keeps several registries under names of the caller's choice, and the handles that they
gave out. Every registry that a session starts gets a number no earlier one had, so a handle
never opens a registry that took the place of its own. Handles stay when their registry is closed.
Whether there can be room for what is declared is left aside here.
-/

namespace CommandLine

/-- A handle of a flag, of either shape and any kind. -/
inductive ValueHandle where
  | scalar (k : Kind) (h : FlagHandle k)
  | list (k : Kind) (h : ListHandle k)
  deriving DecidableEq

namespace ValueHandle

/-- The scope the flag belongs to. -/
def scope : ValueHandle → ScopeId
  | .scalar _ h => h.scope
  | .list _ h => h.scope

/-- The text of the handle. -/
def describe : ValueHandle → String
  | .scalar _ h => h.describe
  | .list _ h => h.describe

/-- Whether two handles are the same; handles of different shape or kind do not compare. -/
def same? : ValueHandle → ValueHandle → Option Bool
  | .scalar k a, .scalar k' b => if h : k = k' then some (h ▸ a == b) else none
  | .list k a, .list k' b => if h : k = k' then some (h ▸ a == b) else none
  | _, _ => none

end ValueHandle

/-- Registries by name, and handles by name. -/
structure Session where
  nextId : Nat := 1
  registries : List (String × Registry) := []
  valueHandles : List (String × ValueHandle) := []
  subcommandHandles : List (String × SubcommandHandle) := []
  positionalHandles : List (String × PositionalHandle) := []

namespace Session

/-- Why a session does not answer. -/
inductive Failure where
  /-- No registry has the name. -/
  | noRegistry
  /-- No handle of the sort has the name. -/
  | noHandle
  /-- The handle is for a list where a single value is read, or the other way round. -/
  | wrongHandle
  /-- The registry refuses. -/
  | refused (e : Error)
  deriving DecidableEq

/-- A table with an entry put in; an earlier entry of the name is gone. -/
def put {α : Type} (table : List (String × α)) (name : String) (a : α) : List (String × α) :=
  (name, a) :: table.filter (·.1 != name)

/-- The handle of a name. -/
def handle {α : Type} (table : List (String × α)) (name : String) : Except Failure α :=
  match table.lookup name with
  | some h => .ok h
  | none => .error .noHandle

/-- The registry of a name. -/
def registry (s : Session) (name : String) : Except Failure Registry :=
  match s.registries.lookup name with
  | some r => .ok r
  | none => .error .noRegistry

/-- A registry's answer as the session's. -/
def answer {α : Type} : Except Error α → Except Failure α
  | .ok a => .ok a
  | .error e => .error (.refused e)

/-- Runs an operation on the registry of a name. -/
def update {α : Type} (s : Session) (name : String)
    (operation : Registry → Registry × Except Error α) : Session × Except Failure α :=
  match s.registry name with
  | .error e => (s, .error e)
  | .ok r =>
    let (r', result) := operation r
    ({ s with registries := put s.registries name r' }, answer result)

/-! ## Registries -/

/-- Starts a registry under a name, in place of one that had it. -/
def start (s : Session) (name program description : String) (config : Config) : Session :=
  { s with
    nextId := s.nextId + 1
    registries := put s.registries name (Registry.start s.nextId program description config) }

/-- Closes a registry; its name is free again. -/
def close (s : Session) (name : String) : Session × Except Failure Unit :=
  match s.registry name with
  | .error e => (s, .error e)
  | .ok _ => ({ s with registries := s.registries.filter (·.1 != name) }, .ok ())

/-! ## Declarations -/

/-- Declares a flag with a single value and keeps its handle. -/
def declareFlag (s : Session) (name saveAs long : String) (short : Option Char) (k : Kind)
    (default : k.Carrier) (description : String) (scope? : Option String) :
    Session × Except Failure ValueHandle :=
  match s.update name (·.declareFlag long short k default description scope?) with
  | (s', .error e) => (s', .error e)
  | (s', .ok h) =>
    ({ s' with valueHandles := put s'.valueHandles saveAs (.scalar k h) }, .ok (.scalar k h))

/-- Declares a flag that collects a list and keeps its handle. -/
def declareListFlag (s : Session) (name saveAs long : String) (short : Option Char) (k : Kind)
    (description : String) (scope? : Option String) : Session × Except Failure ValueHandle :=
  match s.update name (·.declareListFlag long short k description scope?) with
  | (s', .error e) => (s', .error e)
  | (s', .ok h) =>
    ({ s' with valueHandles := put s'.valueHandles saveAs (.list k h) }, .ok (.list k h))

/-- Declares a subcommand and keeps its handle. -/
def declareSubcommand (s : Session) (name saveAs subcommand description : String) :
    Session × Except Failure SubcommandHandle :=
  match s.update name (·.declareSubcommand subcommand description) with
  | (s', .error e) => (s', .error e)
  | (s', .ok h) =>
    ({ s' with subcommandHandles := put s'.subcommandHandles saveAs h }, .ok h)

/-- Declares the positional argument of a scope and keeps its handle. -/
def declarePositional (s : Session) (name saveAs positional description : String)
    (scope? : Option String) : Session × Except Failure PositionalHandle :=
  match s.update name (·.declarePositional positional description scope?) with
  | (s', .error e) => (s', .error e)
  | (s', .ok h) =>
    ({ s' with positionalHandles := put s'.positionalHandles saveAs h }, .ok h)

/-! ## Parsing and the last failure -/

/-- Parses a command line. -/
def parse (s : Session) (name : String) (args : List String) : Session × Except Failure Unit :=
  s.update name (·.parse args)

/-- Reads the message of a registry's last failure. -/
def lastError (s : Session) (name : String) : Session × Except Failure (Option String) :=
  s.update name fun r => let (text, r') := r.lastError; (r', .ok text)

/-- Forgets a registry's last failure. -/
def clearError (s : Session) (name : String) : Session × Except Failure Unit :=
  s.update name fun r => (r.clearError, .ok ())

/-! ## Reading -/

/-- Reads a single value through a handle, by a reader such as `Registry.get`. -/
def readScalar (s : Session) (name via : String)
    (read : {k : Kind} → Registry → FlagHandle k → Except Error k.Carrier) :
    Except Failure Value := do
  let r ← s.registry name
  match ← handle s.valueHandles via with
  | .scalar k h => (answer (read r h)).map (.scalar k)
  | .list _ _ => throw .wrongHandle

/-- The current value of a flag. -/
def get (s : Session) (name via : String) : Except Failure Value :=
  s.readScalar name via Registry.get

/-- The default of a flag. -/
def defaultOf (s : Session) (name via : String) : Except Failure Value :=
  s.readScalar name via Registry.defaultOf

/-- The list of a flag. -/
def list (s : Session) (name via : String) : Except Failure Value := do
  let r ← s.registry name
  match ← handle s.valueHandles via with
  | .list k h => (answer (r.list h)).map fun vs => .list ⟨k, vs⟩
  | .scalar _ _ => throw .wrongHandle

/-- The positional values of a scope. -/
def positionals (s : Session) (name via : String) : Except Failure (List String) := do
  let r ← s.registry name
  answer (r.positionals (← handle s.positionalHandles via))

/-- Whether a registry's command line selected the subcommand. -/
def isActive (s : Session) (name via : String) : Except Failure Bool := do
  let r ← s.registry name
  return r.isActive (← handle s.subcommandHandles via)

end Session

end CommandLine
