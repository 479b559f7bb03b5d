/-!
# Limits of a registry

How much a registry may hold, and whether an empty command line is accepted.
-/

namespace CommandLine

/-- The limits of a registry. -/
structure Config where
  /-- Flags in one scope, automatic ones included. -/
  maxFlags : Nat := 256
  /-- Subcommands. -/
  maxSubcommands : Nat := 64
  /-- Positional values in one scope. -/
  maxPositionals : Nat := 16
  /-- Buckets of the table of subcommand names. -/
  hashBuckets : Nat := 1024
  /-- Whether a command line without arguments is accepted. -/
  allowEmptyArguments : Bool := true
  deriving DecidableEq

namespace Config

/-- The same limits, with an empty command line refused. -/
def strict (c : Config) : Config := { c with allowEmptyArguments := false }

end Config

end CommandLine
