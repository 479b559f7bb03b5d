import CommandLine.Toml.Key
import CommandLine.Toml.Value

/-!
# Texts of values

A value on one line, as messages show it. The entries of a table are sorted by name. A string
takes the plainest quotes that hold it without escapes; a name stays on its line.
-/

namespace CommandLine.Toml

/-! ## Strings -/

/-- Whether a character needs an escape wherever it stands. -/
def isControl (c : Char) : Bool := !isLineChar c && c != '\n'

/-- The most quotes of a sort in a row. -/
def longestRun (quote : Char) (cs : List Char) : Nat :=
  (cs.foldl (fun (best, now) c =>
    if c == quote then (max best (now + 1), now + 1) else (best, 0)) (0, 0)).1

/-- The escape of a character by its code point. -/
def unicodeEscape (c : Char) : List Char :=
  let digits := Nat.toDigits 16 c.toNat
  backslash :: 'u' :: (List.replicate (4 - digits.length) '0' ++ digits).map Char.toUpper

/-- The characters of a basic string, with escapes where they are needed. Between triple quotes
line feeds and up to two quotes in a row stand as they are. -/
def escapeFrom (triple : Bool) (quotes : Nat) : List Char → List Char
  | [] => []
  | c :: cs =>
    if c == doubleQuote then
      if triple && quotes < 2 then c :: escapeFrom triple (quotes + 1) cs
      else backslash :: c :: escapeFrom triple 0 cs
    else
      let written : List Char :=
        match c with
        | '\x08' => [backslash, 'b']
        | '\t' => [backslash, 't']
        | '\n' => if triple then ['\n'] else [backslash, 'n']
        | '\x0c' => [backslash, 'f']
        | '\r' => [backslash, 'r']
        | c =>
          if c == backslash then [backslash, backslash]
          else if isControl c then unicodeEscape c else [c]
      written ++ escapeFrom triple 0 cs

/-- A text between quotes, with a line feed behind the opening ones if it has lines. -/
def enclose (quotes : List Char) (fresh : Bool) (cs : List Char) : List Char :=
  quotes ++ (if fresh then ['\n'] else []) ++ cs ++ quotes

/-- A text in double quotes on one line. -/
def escapedLine (cs : List Char) : List Char :=
  enclose [doubleQuote] false (escapeFrom false 0 cs)

/-- A text on one line, in the quotes that leave its quotes and backslashes as they are. -/
def plainLine? (cs : List Char) : Option (List Char) :=
  if cs.any isControl || cs.contains '\n' then none
  else if !cs.contains backslash && !cs.contains doubleQuote then some (escapedLine cs)
  else if !cs.contains singleQuote then some (enclose [singleQuote] false cs)
  else none

/-- A text in quotes that may go over lines. -/
def multiline (cs : List Char) : List Char :=
  let control := cs.any isControl
  let lines := cs.contains '\n'
  let triple (quote : Char) := [quote, quote, quote]
  if !control && !cs.contains backslash && longestRun doubleQuote cs ≤ 2 then
    enclose (triple doubleQuote) lines (escapeFrom true 0 cs)
  else if !control && longestRun singleQuote cs ≤ 2 then
    enclose (triple singleQuote) lines cs
  else if lines then enclose (triple doubleQuote) true (escapeFrom true 0 cs)
  else escapedLine cs

/-- The text of a string. -/
def quotedText (text : String) : List Char :=
  (plainLine? text.toList).getD (multiline text.toList)

/-- The text of a name in a table. -/
def nameText (name : String) : List Char :=
  let cs := name.toList
  if !cs.isEmpty && cs.all isBareChar then cs else (plainLine? cs).getD (escapedLine cs)

/-! ## Values -/

/-- Texts with a comma between each two. -/
def commaSeparated : List (List Char) → List Char
  | [] => []
  | [x] => x
  | x :: xs => x ++ ',' :: ' ' :: commaSeparated xs

/-- The text of a table from those of its entries. -/
def tableText : List (List Char × List Char) → List Char
  | [] => ['\x7b', '\x7d']
  | entries =>
    ['\x7b', ' '] ++
      commaSeparated (entries.map fun (name, v) => name ++ ' ' :: '=' :: ' ' :: v) ++ [' ', '\x7d']

/-- Entries in the order of their names. -/
def sortedByName {α : Type} (entries : List (String × α)) : List (String × α) :=
  entries.mergeSort fun (name, _) (name', _) => name ≤ name'

mutual

/-- The text of a value inside another. -/
def Value.chars : Value → List Char
  | .string text => quotedText text
  | .integer n => (Numeral.decimal n).toList
  | .float x => x.text.toList
  | .boolean b => if b then ['t', 'r', 'u', 'e'] else ['f', 'a', 'l', 's', 'e']
  | .datetime d => d.text.toList
  | .array items => '[' :: commaSeparated (itemChars items) ++ [']']
  | .table entries =>
    tableText ((sortedByName (entryChars entries)).map fun (name, cs) => (nameText name, cs))

/-- The texts of the items of an array. -/
def itemChars : List Value → List (List Char)
  | [] => []
  | v :: rest => v.chars :: itemChars rest

/-- The texts of the entries of a table, with their names. -/
def entryChars : List (String × Value) → List (String × List Char)
  | [] => []
  | (name, v) :: rest => (name, v.chars) :: entryChars rest

end

/-- The text of a value. A date or time that stands alone is shown as a table of one entry. -/
def Value.text : Value → String
  | .datetime d =>
    String.ofList (tableText [(nameText Datetime.entryName, quotedText d.text)])
  | v => String.ofList v.chars

end CommandLine.Toml
