import CommandLine.Help
import CommandLine.Registry.Declare

/-!
# Parsing

A registry parses one command line. The first token selects a subcommand, if any is declared and
the token has no dash; the tokens that remain are read in the selected scope. A registry that
refuses an empty command line shows the help text by itself.
-/

namespace CommandLine.Registry

/-- Selects the scope of a command line, and gives the tokens that remain for it. -/
def select (r : Registry) (args : List String) :
    Except Error (Registry × ScopeId × List String) :=
  match args with
  | [] => .ok (r, .global, [])
  | first :: rest =>
    if r.subcommands.isEmpty || startsWithDash first then .ok (r, .global, args)
    else
      match r.slot? first with
      | none => .error (.unknownSubcommand first)
      | some slot =>
        if slot < r.subcommands.length then
          .ok (r.activate slot, .subcommand slot, rest)
        else .error (.internal s!"subcommand slot {slot}")

/-- Reads tokens in a scope; the registry keeps what was read before a failure. -/
def feed (r : Registry) (id : ScopeId) (tokens : List String) : Registry × Except Error Unit :=
  match r.scope id with
  | .error e => (r, .error e)
  | .ok scope =>
    let (scope', result) := scope.feed r.config.maxPositionals tokens
    (r.setScope scope' id, result)

/-- Selects a scope and reads the command line in it. -/
def run (r : Registry) (args : List String) : Registry × Except Error Unit :=
  match r.select args with
  | .error e => (r, .error e)
  | .ok (selected, id, tokens) => selected.feed id tokens

/-- Parses a command line, without the program's name. A second command line is refused. -/
def parse (r : Registry) (args : List String) : Registry × Except Error Unit :=
  if r.parsed then r.fail (.internal "registry already parsed")
  else
    let r := { r with parsed := true }
    if args.isEmpty && !r.config.allowEmptyArguments then r.fail .noArguments
    else
      match r.run args with
      | (r', .ok ()) => (r', .ok ())
      | (r', .error e) => r'.fail e

/-- What a parse writes by itself: the help text, before it refuses an empty command line. -/
def parseOutput (r : Registry) (args : List String) : String :=
  if !r.parsed && args.isEmpty && !r.config.allowEmptyArguments then r.help else ""

end CommandLine.Registry
