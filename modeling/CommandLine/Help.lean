import CommandLine.Registry.Basic

/-!
# Help texts

The help text of a registry shows its selected scope: the positional argument, the flags, and for
the global scope the subcommands. Descriptions stand in a column behind the names. The column of
the flags is wide enough for the positional name and all long names, that of the subcommands also
for their own names. Widths count characters.
-/

namespace CommandLine.Help

/-- Room between the longest name and the descriptions. -/
def gap : Nat := 4

/-- A text with blanks behind it, up to a width. -/
def padRight (text : String) (width : Nat) : String :=
  text ++ String.ofList (List.replicate (width - text.length) ' ')

/-- One row: a mark, a name in a column, and a description. -/
def row (mark name : String) (width : Nat) (description : String) : String :=
  mark ++ padRight name width ++ description ++ "\n"

/-- The width of the longest of some names, and of what came before. -/
def widest (start : Nat) (names : List String) : Nat :=
  names.foldl (fun width name => max width name.length) start

/-- The row of a flag. -/
def flagRow (width : Nat) (flag : Flag) : String :=
  match flag.long, flag.short with
  | some long, _ => row "    --" long width flag.description
  | none, some c => row "    -" (String.ofList [c]) width flag.description
  | none, none => ""

/-- The row of the positional argument, if it has a name, under its heading. -/
def positionalSection (p : Positional) : String :=
  match p.name with
  | some name => "Args:\n" ++ row "     " name (name.length + gap) p.description
  | none => ""

/-- The width of the names in a scope. -/
def scopeWidth (s : Scope) : Nat :=
  widest ((s.positional.name.map String.length).getD 0) (s.flags.filterMap (·.long))

/-- The rows of a scope's flags, in the order of their declaration. -/
def flagRows (s : Scope) : List String :=
  s.flags.map (flagRow (scopeWidth s + gap))

/-- The sections of a scope. -/
def scopeSections (s : Scope) : String :=
  positionalSection s.positional ++ "Options:\n" ++ String.join (flagRows s)

/-- The width of the names in the listing of subcommands. -/
def subcommandWidth (r : Registry) : Nat :=
  widest (scopeWidth r.global) (r.subcommands.map (·.name))

/-- The rows of the subcommands, in the order of their declaration. -/
def subcommandRows (r : Registry) : List String :=
  r.subcommands.map fun sub => row "    " sub.name (subcommandWidth r + gap) sub.description

/-- The section of the subcommands, if there are any. -/
def subcommandSection (r : Registry) : String :=
  if r.subcommands.isEmpty then "" else "\nSubcommands:\n" ++ String.join (subcommandRows r)

/-- The line that shows the shape of a command line. -/
def usage (r : Registry) : String :=
  let shape :=
    match r.activeSubcommand with
    | some sub => sub.name ++ " [ARGS] [FLAGS]"
    | none =>
      if r.subcommands.isEmpty then "[ARGS] [FLAGS]" else "[SUBCOMMANDS] [ARGS] [FLAGS]"
  "Usage: " ++ r.programName ++ " " ++ shape ++ "\n\n"

/-- The program's description, if it has one. -/
def preamble (r : Registry) : String :=
  match r.description with
  | some text => text ++ "\n\n"
  | none => ""

/-- The sections below the usage line. -/
def sections (r : Registry) : String :=
  match r.activeSubcommand with
  | some sub => scopeSections sub.scope
  | none => scopeSections r.global ++ subcommandSection r

end CommandLine.Help

namespace CommandLine.Registry

/-- The help text for the selected scope. -/
def help (r : Registry) : String :=
  Help.preamble r ++ Help.usage r ++ Help.sections r

end CommandLine.Registry
