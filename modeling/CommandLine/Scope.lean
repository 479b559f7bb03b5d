import CommandLine.Flag

/-!
# Scopes

A scope is a table of flags and the positional values that the command line gives it. A program
has a global scope and one for each subcommand. `Scope.step` reads one item off the command line,
and `Scope.feed` reads items until the line ends or one of them fails; what came before a failure
stays read.
-/

namespace CommandLine

/-- The positional argument of a scope: its name in the help text, and the list of its values. -/
structure Positional where
  name : Option String := none
  description : String := ""
  list : ValueList := .empty .string
  deriving DecidableEq

namespace Positional

/-- The values; a list of another kind than text has none to show. -/
def values (p : Positional) : List String := (p.list.as? .string).getD []

/-- Names the argument, and moves its values into another list, as far as that takes them. -/
def declare (p : Positional) (name description : String) (list : ValueList) : Positional where
  name := some name
  description := description
  list := p.values.foldl (fun l text => (l.push? text).getD l) list

/-- A list of texts takes all values. -/
theorem list_declare (p : Positional) (name description : String) (items : List String) :
    (p.declare name description ⟨.string, items⟩).list = ⟨.string, items ++ p.values⟩ := by
  unfold declare
  generalize p.values = texts
  induction texts generalizing items with
  | nil => simp
  | cons text texts ih =>
    rw [List.foldl_cons]
    exact (ih (items ++ [text])).trans (by simp)

/-- Appends a value, if there is room under a limit. -/
def push (p : Positional) (text : String) (limit : Nat) : Except Error Positional :=
  if limit ≤ p.list.length then .error (.tooManyPositionals limit)
  else
    match p.list.push? text with
    | none => .error (.internal "main argument list is not a string list")
    | some list => .ok { p with list := list }

end Positional

/-- Flags and positional values that belong together. -/
structure Scope where
  flags : List Flag := []
  positional : Positional := {}
  deriving DecidableEq

/-- The global scope, or that of a subcommand by its number. -/
inductive ScopeId where
  | global
  | subcommand (slot : Nat)
  deriving DecidableEq

/-- A subcommand and its scope, with a mark that the command line sets when it selects it. -/
structure Subcommand where
  name : String
  description : String
  isActive : Bool := false
  scope : Scope := {}
  deriving DecidableEq

namespace Scope

/-- The first flag with a long name. -/
def findLong (s : Scope) (name : String) : Option Nat :=
  s.flags.findIdx? (·.long == some name)

/-- The first flag with a short name. -/
def findShort (s : Scope) (c : Char) : Option Nat :=
  s.flags.findIdx? (·.short == some c)

/-- Adds a flag at the end, if there is room under a limit, and gives its index. -/
def addFlag (s : Scope) (flag : Flag) (limit : Nat) : Except Error (Scope × Nat) :=
  if limit ≤ s.flags.length then .error (.full "flags" limit)
  else .ok ({ s with flags := s.flags ++ [flag] }, s.flags.length)

/-- Names the positional argument; values already read move into a new list. -/
def namePositional (s : Scope) (name description : String) : Scope :=
  { s with positional := s.positional.declare name description (.empty .string) }

theorem positional_namePositional (s : Scope) (name description : String) :
    (s.namePositional name description).positional =
      ⟨some name, description, ⟨.string, s.positional.values⟩⟩ := by
  have hlist := s.positional.list_declare name description []
  rw [List.nil_append] at hlist
  exact congrArg (Positional.mk (some name) description) hlist

theorem values_namePositional (s : Scope) (name description : String) :
    (s.namePositional name description).positional.values = s.positional.values := by
  rw [positional_namePositional]
  rfl

/-- Names the positional argument, with room for as many values as a limit allows. -/
def namePositionalWithRoom (s : Scope) (name description : String) (limit : Nat) :
    Except Stop Scope :=
  (ValueList.withRoom .string limit).map fun list =>
    { s with positional := s.positional.declare name description list }

/-- Adds a positional value, if there is room under a limit. -/
def addPositional (s : Scope) (text : String) (limit : Nat) : Except Error Scope :=
  (s.positional.push text limit).map fun positional => { s with positional := positional }

/-- Sets the value of the flag at an index. -/
def setValue (s : Scope) (index : Nat) (v : Value) : Scope :=
  { s with flags := s.flags.modify index ({ · with value := v }) }

/-- Reads the value of the flag at an index off the tokens that follow it. -/
def consumeAt (s : Scope) (index : Nat) (rest : List String) : Except Error (Scope × Nat) :=
  match s.flags[index]? with
  | none => .error (.internal s!"flag index {index}")
  | some flag => (flag.consume rest).map fun (v, used) => (s.setValue index v, used)

/-- Reads the item that starts with a token, and gives how many of the following tokens belong
to it. -/
def step (limit : Nat) (s : Scope) (token : String) (rest : List String) :
    Except Error (Scope × Nat) :=
  match Token.classify token with
  | .separator => .ok (s, 0)
  | .positional text => (s.addPositional text limit).map (·, 0)
  | .long name =>
    match s.findLong name with
    | none => .error (.unknownFlag token)
    | some index => s.consumeAt index rest
  | .short c =>
    match s.findShort c with
    | none => .error (.unknownFlag token)
    | some index => s.consumeAt index rest
  | .cluster text => .error (.cluster text)
  | .dash => .error (.unknownFlag token)

/-- Reads items until the tokens end or an item fails, and gives the scope reached. -/
def feed (limit : Nat) (s : Scope) : List String → Scope × Except Error Unit
  | [] => (s, .ok ())
  | token :: rest =>
    match s.step limit token rest with
    | .error e => (s, .error e)
    | .ok (s', used) => s'.feed limit (rest.drop used)
termination_by tokens => tokens.length
decreasing_by simp only [List.length_drop, List.length_cons]; omega

end Scope

end CommandLine
