import CommandLine.Error

/-!
# The last failure

A slot holds the kind of one failure, where it was found if it is internal, and whether its message
was read. `record` overwrites it; `recordFirst` keeps a failure that nobody has read yet. What is
said about an internal failure is cut off at a limit, once when it is recorded and once more when it
is shown.
-/

namespace CommandLine

/-- The first characters of a text, as many as a limit allows. -/
def bounded (text : String) (limit : Nat) : String := String.ofList (text.toList.take limit)

/-- Room for the last failure. -/
structure ErrorSlot where
  kind : Option ErrorKind := none
  /-- Where an internal failure was found. -/
  detail : Option String := none
  read : Bool := false
  deriving DecidableEq

namespace ErrorSlot

/-- The longest text about an internal failure, in characters. -/
def internalLimit : Nat := 200

/-- Whether the slot is empty. -/
def isClear (s : ErrorSlot) : Bool := s.kind.isNone

/-- What a slot keeps of a failure beside its kind. -/
def detailOf : Error → Option String
  | .internal detail => some (bounded detail internalLimit)
  | _ => none

/-- Puts a failure into the slot. -/
def record (_ : ErrorSlot) (e : Error) : ErrorSlot := { kind := some e.kind, detail := detailOf e }

/-- Puts a failure into the slot unless it holds one that was not read. -/
def recordFirst (s : ErrorSlot) (e : Error) : ErrorSlot :=
  if s.isClear || s.read then s.record e else s

/-- The sentence that a host shows for the failure in the slot. -/
def text? (s : ErrorSlot) : Option String :=
  match s.kind with
  | none => none
  | some .internal =>
    let place := s.detail.getD "unknown location"
    some (bounded ("Internal error was found at " ++ place) internalLimit)
  | some kind => some kind.summary

/-- Reads the message of the failure in the slot, which then counts as read. -/
def message (s : ErrorSlot) : Option String × ErrorSlot :=
  (s.text?, if s.isClear then s else { s with read := true })

/-- Empties the slot. -/
def clear (_ : ErrorSlot) : ErrorSlot := {}

end ErrorSlot

end CommandLine
