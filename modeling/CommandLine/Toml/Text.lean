import CommandLine.Numeral
import CommandLine.Toml.Space

/-!
# Strings

A string is basic, with escapes, or literal, without; and it stands on one line, or between
triple quotes over several. A line end between triple quotes reads as a line feed, and the first
one is dropped. At most two quotes in a row belong to the text between triple quotes.
-/

namespace CommandLine.Toml

open Reader

/-- The quote of a basic string. -/
def doubleQuote : Char := '\x22'

/-- The quote of a literal string. -/
def singleQuote : Char := '\x27'

/-- The character that starts an escape. -/
def backslash : Char := '\x5c'

/-- A character that stands for itself in a basic string. -/
def isBasicChar (c : Char) : Bool := isLineChar c && c != doubleQuote && c != backslash

/-- A character of a literal string. -/
def isLiteralChar (c : Char) : Bool := isLineChar c && c != singleQuote

/-- Characters in base sixteen, of a given count. -/
def hexDigits : Nat → Reader (List Char)
  | 0 => return []
  | n + 1 => do
    let c ← satisfy fun c => (Numeral.digit? 16 c).isSome
    return c :: (← hexDigits n)

/-- The character of a code point, which must not be a surrogate. -/
def codePoint (count : Nat) : Reader Char := do
  let n ← ofOption (Numeral.digits? 16 (← hexDigits count))
  if n.isValidChar then return Char.ofNat n else refuse

/-- An escape in a basic string. -/
def escape : Reader Char := do
  char backslash
  let c ← satisfy fun _ => true
  match c with
  | 'b' => return '\x08'
  | 't' => return '\t'
  | 'n' => return '\n'
  | 'f' => return '\x0c'
  | 'r' => return '\r'
  | 'u' => codePoint 4
  | 'U' => codePoint 8
  | c => if c == doubleQuote || c == backslash then return c else refuse

/-- A basic string on one line. -/
def basicString : Reader (List Char) := do
  char doubleQuote
  let pieces ← many (run1 isBasicChar <|> (do return [← escape]))
  char doubleQuote
  return pieces.flatten

/-- A literal string on one line. -/
def literalString : Reader (List Char) := do
  char singleQuote
  let cs ← run isLiteralChar
  char singleQuote
  return cs

/-- A backslash at the end of a line, with all the space that follows. -/
def foldedLine : Reader Unit := do
  char backslash
  blanks
  newline
  let _ ← many ((do let _ ← run1 isInlineBlank) <|> newline)

/-- One or two quotes that do not end the string. -/
def loneQuotes (quote : Char) : Reader (List Char) := do
  let quotes ← run1 (· == quote)
  if quotes.length < 3 then return quotes else refuse

/-- The end of a string between triple quotes; up to two more quotes in front belong to it. -/
def closingQuotes (quote : Char) : Reader (List Char) := do
  let quotes ← run1 (· == quote)
  if 3 ≤ quotes.length ∧ quotes.length ≤ 5 then return quotes.drop 3 else refuse

/-- A string between triple quotes, from pieces of a given form. -/
def tripleQuoted (quote : Char) (piece : Reader (List Char)) : Reader (List Char) := do
  exactly [quote, quote, quote]
  let _ ← option newline
  let pieces ← many (piece <|> (do newline; return ['\n']) <|> loneQuotes quote)
  return pieces.flatten ++ (← closingQuotes quote)

/-- A basic string between triple quotes. -/
def basicText : Reader (List Char) :=
  tripleQuoted doubleQuote
    (run1 isBasicChar <|> (do foldedLine; return []) <|> (do return [← escape]))

/-- A literal string between triple quotes. -/
def literalText : Reader (List Char) :=
  tripleQuoted singleQuote (run1 isLiteralChar)

/-- A string on one line. -/
def quoted : Reader String := do
  return String.ofList (← basicString <|> literalString)

/-- A string of any form. -/
def string : Reader String := do
  return String.ofList (← basicText <|> literalText <|> basicString <|> literalString)

end CommandLine.Toml
