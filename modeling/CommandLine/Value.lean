import CommandLine.Memory
import CommandLine.Numeral

/-!
# Values of flags

A flag holds one value of its kind, or a list of values of its kind. Tokens are converted by
`Kind.read?`; `ValueList.append` converts a whole run of tokens or none of it. The positional values
of a scope are a list as well, which takes texts as they are (`ValueList.push?`).
-/

namespace CommandLine

/-- The texts that a truth value counts as true. -/
def isTruthy (token : String) : Bool :=
  token == "t" || token == "T" || token == "true" || token == "True"

namespace Kind

/-- Converts a token to a kind: a truth value and a text always exist, an integer only if the
token is a literal in range. -/
def read? : (k : Kind) → String → Option k.Carrier
  | .bool, token => some (isTruthy token)
  | .int t, token => Number.read? t token
  | .string, token => some token

/-- Views a value of one kind at another: possible only if the kinds agree. -/
def cast? {k : Kind} (v : k.Carrier) (target : Kind) : Option target.Carrier :=
  if h : k = target then some (h ▸ v) else none

/-- The bytes that a value takes up in a list; of a text, where it is, its length and its room. -/
def bytes : Kind → Nat
  | .bool => 1
  | .int t => t.bytes
  | .string => 24

end Kind

/-- A list of values of one kind. -/
structure ValueList where
  kind : Kind
  items : List kind.Carrier
  deriving DecidableEq

namespace ValueList

/-- The list without elements. -/
def empty (k : Kind) : ValueList := ⟨k, []⟩

/-- The list without elements, with room for a number of them. -/
def withRoom (k : Kind) (count : Nat) : Except Stop ValueList :=
  (askRoom k.bytes count).map fun _ => empty k

/-- The number of elements. -/
def length (l : ValueList) : Nat := l.items.length

/-- The elements, for a reader who expects values of a kind. -/
def as? (l : ValueList) (target : Kind) : Option (List target.Carrier) :=
  if h : l.kind = target then some (h ▸ l.items) else none

/-- Appends a text as it is; only a list of texts takes it. -/
def push? (l : ValueList) (text : String) : Option ValueList :=
  match l with
  | ⟨.string, items⟩ => some ⟨.string, items ++ [text]⟩
  | _ => none

/-- Converts tokens to a kind in order, or gives the first one that does not convert. -/
def readAll (k : Kind) : List String → Except String (List k.Carrier)
  | [] => .ok []
  | token :: rest =>
    match k.read? token with
    | none => .error token
    | some v => (readAll k rest).map (v :: ·)

/-- Appends the values of tokens; if one does not convert, it is the error and nothing is
appended. -/
def append (l : ValueList) (tokens : List String) : Except String ValueList :=
  (readAll l.kind tokens).map fun vs => ⟨l.kind, l.items ++ vs⟩

end ValueList

/-- What a flag holds. -/
inductive Value where
  | scalar (k : Kind) (v : k.Carrier)
  | list (l : ValueList)
  deriving DecidableEq

namespace Value

/-- The kind of the value, or of the elements of the list. -/
def kind : Value → Kind
  | .scalar k _ => k
  | .list l => l.kind

/-- Whether the value is a list. -/
def isList : Value → Bool
  | .scalar _ _ => false
  | .list _ => true

/-- The single value, for a reader who expects a kind. -/
def scalar? (target : Kind) : Value → Option target.Carrier
  | .scalar _ v => Kind.cast? v target
  | .list _ => none

/-- The elements of the list, for a reader who expects a kind. -/
def list? (target : Kind) : Value → Option (List target.Carrier)
  | .scalar _ _ => none
  | .list l => l.as? target

end Value

end CommandLine
