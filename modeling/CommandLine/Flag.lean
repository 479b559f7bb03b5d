import CommandLine.Error
import CommandLine.Token
import CommandLine.Value

/-!
# Flags

A flag has a long name, a short name or both, its current value and its default. `Flag.consume`
says what a flag makes of the tokens that follow it on the command line.
-/

namespace CommandLine

/-- A declared flag. -/
structure Flag where
  long : Option String
  short : Option Char
  value : Value
  default : Value
  description : String
  deriving DecidableEq

/-- A name that may be left out by leaving it empty. -/
def nonEmpty? (text : String) : Option String :=
  if text.isEmpty then none else some text

namespace Flag

/-- A flag with a single value, which starts at its default. -/
def scalar (long : String) (short : Option Char) (k : Kind) (default : k.Carrier)
    (description : String) : Flag where
  long := nonEmpty? long
  short := short
  value := .scalar k default
  default := .scalar k default
  description := description

/-- A flag with a list, which starts empty. -/
def list (long : String) (short : Option Char) (k : Kind) (description : String) : Flag where
  long := nonEmpty? long
  short := short
  value := .list (.empty k)
  default := .list (.empty k)
  description := description

/-- The kind of the flag's values. -/
def kind (f : Flag) : Kind := f.value.kind

/-- Whether the flag collects a list. -/
def isList (f : Flag) : Bool := f.value.isList

/-- Whether the flag has a name to be given by. -/
def isNamed (f : Flag) : Bool := f.long.isSome || f.short.isSome

/-- The flag as it is written on the command line, by its long name if it has one. -/
def displayName (f : Flag) : String :=
  match f.long, f.short with
  | some long, _ => "--" ++ long
  | none, some c => String.ofList ['-', c]
  | none, none => "<unnamed>"

/-- The name under which the flag's value is reported. -/
def key (f : Flag) : String :=
  match f.long, f.short with
  | some long, _ => long
  | none, some c => String.ofList [c]
  | none, none => ""

/-- The value a flag takes from the tokens after it, and how many of them it uses: a switch
uses none, any other single value one, a list the whole run up to the next flag. -/
def consume (f : Flag) (rest : List String) : Except Error (Value × Nat) :=
  match f.value with
  | .scalar .bool _ => .ok (.scalar .bool true, 0)
  | .scalar k _ =>
    match rest with
    | [] => .error (.missingValue f.displayName)
    | token :: _ =>
      match k.read? token with
      | some v => .ok (.scalar k v, 1)
      | none => .error (.invalidNumber token)
  | .list l =>
    let run := listRun l.kind.isNumeric rest
    match l.append run with
    | .ok l' => .ok (.list l', run.length)
    | .error token => .error (.invalidNumber token)

end Flag

end CommandLine
