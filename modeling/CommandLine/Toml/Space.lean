import CommandLine.Toml.Reader

/-!
# Space between the parts of a document

Blanks within a line, comments, and the ends of lines. Lines end in a line feed, alone or after a
carriage return. Other control characters than the tab appear nowhere.
-/

namespace CommandLine.Toml

open Reader

/-- A space or a tab. -/
def isInlineBlank (c : Char) : Bool := c == ' ' || c == '\t'

/-- A character that can stand on a line: a tab or anything that is no control character. -/
def isLineChar (c : Char) : Bool :=
  c == '\t' || (0x20 ≤ c.toNat && c.toNat != 0x7F)

/-- Blanks within a line. -/
def blanks : Reader Unit := do
  let _ ← run isInlineBlank

/-- The end of a line. -/
def newline : Reader Unit := exactly ['\n'] <|> exactly ['\r', '\n']

/-- A comment, up to the end of its line. -/
def comment : Reader Unit := do
  char '#'
  let _ ← run isLineChar

/-- What may follow on a line, and its end. -/
def lineEnd : Reader Unit := do
  blanks
  let _ ← option comment
  newline <|> atEnd

/-- Space that may run over several lines, with comments. -/
def filler : Reader Unit := do
  let _ ← many ((do let _ ← run1 isInlineBlank) <|> newline <|> (do comment; newline))

end CommandLine.Toml
