import CommandLine.Manifest.Basic
import CommandLine.Registry.Declare
import CommandLine.Toml.Printer

/-!
# Registries from manifests

`Manifest.build` declares everything in a manifest on a new registry: the global positional
argument and flags, and then subcommand by subcommand. The first declaration that fails is the
error, unless the program is stopped before because there cannot be room for what is declared.
-/

namespace CommandLine

/-- Why the default in a manifest is not one for its flag. -/
inductive DefaultMismatch where
  | notBoolean (found : Toml.Value)
  | notString (found : Toml.Value)
  | doesNotFit (found : Toml.Value) (t : IntKind)

/-- The reason in words. -/
def DefaultMismatch.message : DefaultMismatch → String
  | .notBoolean found => "expected a boolean default, found " ++ found.text
  | .notString found => "expected a string default, found " ++ found.text
  | .doesNotFit found t => "default " ++ found.text ++ " does not fit in " ++ t.name

/-- The integer that a default stands for: a number, or a literal in a string. -/
def IntKind.ofDefault? (t : IntKind) : Toml.Value → Option (Number t)
  | .integer n => Number.ofInt? t n
  | .string literal => Number.read? t literal
  | _ => none

/-- The value of a kind that a default stands for. -/
def Kind.ofDefault : (k : Kind) → Toml.Value → Except DefaultMismatch k.Carrier
  | .bool, v =>
    match v.boolean? with
    | some b => .ok b
    | none => .error (.notBoolean v)
  | .string, v =>
    match v.string? with
    | some text => .ok text
    | none => .error (.notString v)
  | .int t, v =>
    match t.ofDefault? v with
    | some n => .ok n
    | none => .error (.doesNotFit v t)

namespace Manifest

/-- Why a flag of a manifest is not declared. -/
inductive FlagFault where
  | default (reason : DefaultMismatch)
  | refused (e : Error)

/-- The reason in words. -/
def FlagFault.message : FlagFault → String
  | .default reason => reason.message
  | .refused e => e.message

/-- The declaration that fails, and why. -/
inductive BuildError where
  | flag (label : String) (fault : FlagFault)
  | positional (name : String) (e : Error)
  | subcommand (name : String) (e : Error)

namespace BuildError

/-- The declaration that failed, in words. -/
def context : BuildError → String
  | .flag label _ => "Failed to declare flag " ++ label
  | .positional name _ => "Failed to declare main argument `" ++ name ++ "`"
  | .subcommand name _ => "Failed to declare subcommand `" ++ name ++ "`"

/-- Why it failed, in words. -/
def cause : BuildError → String
  | .flag _ fault => fault.message
  | .positional _ e => e.message
  | .subcommand _ e => e.message

/-- The messages, the outermost first. -/
def chain (e : BuildError) : List String := [e.context, e.cause]

end BuildError

/-- Why there is no registry of a manifest: a declaration fails, or the program is stopped. -/
inductive Unbuilt where
  | refused (e : BuildError)
  | stopped (reason : Stop)

/-- The registry after a declaration, or the failure under a name. -/
def built {α : Type} (wrap : Error → BuildError) :
    Registry × Except Error α → Except Unbuilt Registry
  | (r, .ok _) => .ok r
  | (_, .error e) => .error (.refused (wrap e))

/-- The default of a flag: what the manifest gives, or else the zero of its kind. -/
def defaultOf (spec : FlagSpec) : Except DefaultMismatch spec.kind.Carrier :=
  match spec.default with
  | some v => spec.kind.ofDefault v
  | none => .ok spec.kind.zero

/-- Declares a flag. -/
def declareFlag (r : Registry) (scope? : Option String) (spec : FlagSpec) :
    Except Unbuilt Registry :=
  let long := spec.long.getD ""
  let refused (e : Error) : BuildError := .flag spec.label (.refused e)
  if spec.list then
    built refused (r.declareListFlag long spec.short spec.kind spec.description scope?)
  else
    match defaultOf spec with
    | .error reason => .error (.refused (.flag spec.label (.default reason)))
    | .ok default =>
      built refused (r.declareFlag long spec.short spec.kind default spec.description scope?)

/-- Declares a positional argument, if there is one. -/
def declarePositional (r : Registry) (scope? : Option String) :
    Option PositionalSpec → Except Unbuilt Registry
  | none => .ok r
  | some spec =>
    match r.declarePositionalWithRoom spec.name spec.description scope? with
    | .error reason => .error (.stopped reason)
    | .ok result => built (.positional spec.name) result

/-- Declares the positional argument and the flags of a scope. -/
def declareScope (r : Registry) (scope? : Option String) (positional : Option PositionalSpec)
    (flags : List FlagSpec) : Except Unbuilt Registry := do
  let r ← declarePositional r scope? positional
  flags.foldlM (fun r spec => declareFlag r scope? spec) r

/-- Declares a subcommand with its scope. -/
def declareSubcommand (r : Registry) (spec : SubcommandSpec) : Except Unbuilt Registry := do
  let r ← built (.subcommand spec.name) (r.declareSubcommand spec.name spec.description)
  declareScope r (some spec.name) spec.positional spec.flags

/-- The registry of a manifest, under a fresh number. -/
def build (m : Manifest) (id : Nat) : Except Unbuilt Registry := do
  let fresh ← (Registry.startWithRoom id m.name m.description m.config).mapError .stopped
  let r ← declareScope fresh none m.positional m.flags
  m.subcommands.foldlM declareSubcommand r

end Manifest

end CommandLine
