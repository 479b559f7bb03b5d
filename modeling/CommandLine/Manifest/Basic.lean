import CommandLine.Config
import CommandLine.Kind
import CommandLine.Toml.Value

/-!
# Manifests

A manifest describes the command line of a program: its limits, its positional argument, its
flags and its subcommands. `Manifest.validate` checks what every flag must have.
-/

namespace CommandLine

/-- A positional argument in a manifest. -/
structure PositionalSpec where
  name : String
  description : String

/-- A flag in a manifest. -/
structure FlagSpec where
  long : Option String
  short : Option Char
  kind : Kind
  list : Bool
  default : Option Toml.Value
  description : String

/-- A subcommand in a manifest. -/
structure SubcommandSpec where
  name : String
  description : String
  positional : Option PositionalSpec
  flags : List FlagSpec

/-- The description of a program's command line. -/
structure Manifest where
  name : String
  description : String
  config : Config
  positional : Option PositionalSpec
  flags : List FlagSpec
  subcommands : List SubcommandSpec

/-- Why a manifest is not valid. -/
inductive Manifest.Invalid where
  /-- A flag without a name. -/
  | nameless (kind : Kind)
  /-- A list flag with a default. -/
  | listDefault (label : String)
  deriving DecidableEq

/-- The reason in words. -/
def Manifest.Invalid.message : Manifest.Invalid → String
  | .nameless kind => "flag of kind " ++ kind.name ++ " needs a long or a short name"
  | .listDefault label => "list flag " ++ label ++ " cannot have a default"

namespace FlagSpec

/-- The long name, if it is given and not empty. -/
def longName? (f : FlagSpec) : Option String :=
  f.long.filter (!·.isEmpty)

/-- The flag as messages call it. -/
def label (f : FlagSpec) : String :=
  match f.longName?, f.short with
  | some long, _ => "--" ++ long
  | none, some c => String.ofList ['-', c]
  | none, none => "<unnamed>"

/-- Checks that a flag has a name, and that a list has no default. -/
def validate (f : FlagSpec) : Except Manifest.Invalid Unit :=
  if f.longName?.isNone && f.short.isNone then .error (.nameless f.kind)
  else if f.list && f.default.isSome then .error (.listDefault f.label)
  else .ok ()

end FlagSpec

namespace Manifest

/-- All flags: the global ones first, then those of each subcommand. -/
def allFlags (m : Manifest) : List FlagSpec :=
  m.flags ++ m.subcommands.flatMap (·.flags)

/-- Checks every flag, and gives the first fault. -/
def validate (m : Manifest) : Except Invalid Unit :=
  m.allFlags.forM FlagSpec.validate

/-- Why a text is not a manifest. -/
inductive Unreadable where
  /-- The document or one of its fields has a wrong form. -/
  | malformed
  /-- The document is well formed, but not valid. -/
  | invalid (reason : Invalid)
  deriving DecidableEq

/-- The manifest that a text was decoded to, if it was and is valid. -/
def accept : Option Manifest → Except Unreadable Manifest
  | none => .error .malformed
  | some m =>
    match m.validate with
    | .error reason => .error (.invalid reason)
    | .ok () => .ok m

end Manifest

end CommandLine
