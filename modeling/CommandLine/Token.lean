/-!
# Shapes of tokens

A token of the command line is a separator, a long flag, a short flag, a lone dash, a dash with
several characters, or positional. `Token.text` writes a token back. A list flag takes the tokens
after it up to the first one that looks like a flag.
-/

namespace CommandLine

/-- What a token is by its dashes. -/
inductive Token where
  /-- The token `--`. -/
  | separator
  /-- A token without a leading dash. -/
  | positional (text : String)
  /-- `--` and a name that is not empty. -/
  | long (name : String)
  /-- `-` and one character. -/
  | short (c : Char)
  /-- One dash and two or more characters; the whole token is kept. -/
  | cluster (text : String)
  /-- The token `-`. -/
  | dash
  deriving DecidableEq

namespace Token

/-- The shape of a token. -/
def classify (token : String) : Token :=
  match token.toList with
  | ['-'] => .dash
  | ['-', '-'] => .separator
  | '-' :: '-' :: name => .long (String.ofList name)
  | ['-', c] => .short c
  | '-' :: _ => .cluster token
  | _ => .positional token

/-- The token a shape was read from. -/
def text : Token → String
  | .separator => "--"
  | .positional text => text
  | .long name => "--" ++ name
  | .short c => String.ofList ['-', c]
  | .cluster text => text
  | .dash => "-"

end Token

/-- Whether a token ends the run of a list flag. Among numbers a dash before a digit is a sign. -/
def looksLikeFlag (numeric : Bool) (token : String) : Bool :=
  match token.toList with
  | '-' :: rest => !(numeric && rest.head?.any Char.isDigit)
  | _ => false

/-- The tokens a list flag takes: those before the first one that looks like a flag. -/
def listRun (numeric : Bool) (tokens : List String) : List String :=
  tokens.takeWhile (!looksLikeFlag numeric ·)

/-- Whether a token starts with a dash. -/
def startsWithDash (token : String) : Bool :=
  token.toList.head? == some '-'

end CommandLine
