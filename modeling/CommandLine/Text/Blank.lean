/-!
# Blank characters

The characters with the Unicode property White_Space: the ASCII blanks and controls from tab to
carriage return, next line, and the space separators, line and paragraph separators.
-/

namespace CommandLine.Text

/-- Whether a character is white space in any script. -/
def isBlank (c : Char) : Bool :=
  let n := c.toNat
  (0x09 ≤ n && n ≤ 0x0D) || n == 0x20 || n == 0x85 || n == 0xA0 || n == 0x1680 ||
    (0x2000 ≤ n && n ≤ 0x200A) || n == 0x2028 || n == 0x2029 || n == 0x202F || n == 0x205F ||
    n == 0x3000

end CommandLine.Text
