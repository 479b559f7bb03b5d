/-!
# Failures

Every failure of the library is one cause. `Error.message` says it with its particulars, and
`ErrorKind.summary` is the fixed sentence for its kind.
-/

namespace CommandLine

/-- What can go wrong, without the particulars. -/
inductive ErrorKind where
  | unknownSubcommand
  | unknownFlag
  | tooManyPositionals
  | invalidNumber
  | cluster
  | missingValue
  | full
  | duplicateSubcommand
  | noArguments
  | internal
  deriving DecidableEq

namespace ErrorKind

/-- The fixed sentence for a kind of failure. -/
def summary : ErrorKind → String
  | .unknownSubcommand => "Cannot find an appropriate subcommand"
  | .unknownFlag => "Cannot find an appropriate flag"
  | .tooManyPositionals => "Too many main arguments are given"
  | .invalidNumber => "Invalid number or overflowed number is given"
  | .cluster => "Long flags must start with `--`, not `-`"
  | .missingValue => "A flag that takes a value was given none"
  | .full => "Too many flags or subcommands are declared"
  | .duplicateSubcommand => "A subcommand with this name is already declared"
  | .noArguments => "No arguments are given"
  | .internal => "Internal error"

end ErrorKind

/-- A failure with its cause. -/
inductive Error where
  /-- No subcommand has this name. -/
  | unknownSubcommand (name : String)
  /-- No flag answers to this token. -/
  | unknownFlag (token : String)
  /-- The scope already holds as many positional values as it may. -/
  | tooManyPositionals (limit : Nat)
  /-- The token is no integer literal, or out of range. -/
  | invalidNumber (token : String)
  /-- One dash before several characters. -/
  | cluster (token : String)
  /-- The command line ends where the flag needs a value. -/
  | missingValue (flag : String)
  /-- A table of declarations has reached its limit. -/
  | full (what : String) (limit : Nat)
  /-- A subcommand of this name exists. -/
  | duplicateSubcommand (name : String)
  /-- The command line is empty where that is refused. -/
  | noArguments
  /-- The library is used in a way it does not allow. -/
  | internal (detail : String)
  deriving DecidableEq

namespace Error

/-- The kind of a failure. -/
def kind : Error → ErrorKind
  | .unknownSubcommand _ => .unknownSubcommand
  | .unknownFlag _ => .unknownFlag
  | .tooManyPositionals _ => .tooManyPositionals
  | .invalidNumber _ => .invalidNumber
  | .cluster _ => .cluster
  | .missingValue _ => .missingValue
  | .full _ _ => .full
  | .duplicateSubcommand _ => .duplicateSubcommand
  | .noArguments => .noArguments
  | .internal _ => .internal

/-- The failure in words, with its particulars. -/
def message : Error → String
  | .unknownSubcommand name => "Cannot find an appropriate subcommand: " ++ name
  | .unknownFlag token => "Cannot find an appropriate flag: " ++ token
  | .tooManyPositionals limit => s!"Too many main arguments are given (at most {limit})"
  | .invalidNumber token => "Invalid number or overflowed number is given: " ++ token
  | .cluster token => "Long flags must start with `--`, not `-`: " ++ token
  | .missingValue flag => "Flag " ++ flag ++ " requires a value"
  | .full what limit => "Cannot declare more " ++ what ++ s!" (limit is {limit})"
  | .duplicateSubcommand name => "Subcommand `" ++ name ++ "` is already declared"
  | .noArguments => "No arguments are given"
  | .internal detail => "Internal error was found at " ++ detail

end Error

end CommandLine
