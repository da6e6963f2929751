/-!
Blank characters and trimming. A character is blank when Unicode calls it white
space, or when it is one of the four separator controls U+001C to U+001F. The
zero width space and the byte order mark are not blank.
-/

namespace SheetBinding.Text

/-- Whether a character is blank. -/
def isBlank (c : Char) : Bool :=
  let n := c.toNat
  (9 ≤ n && n ≤ 13) || (28 ≤ n && n ≤ 32) || n == 0x85 || n == 0xA0 || n ==
    0x1680 || (0x2000 ≤ n && n ≤ 0x200A) || n == 0x2028 || n == 0x2029 || n ==
    0x202F || n == 0x205F || n == 0x3000

/-- Blanks that may stand between the tokens of a sheet or a list: space, tab,
form feed, carriage return and line feed. -/
def isGap (c : Char) : Bool :=
  c == ' ' || c == '\t' || c == '\x0c' || c == '\r' || c == '\n'

/-- What follows the gap at the start. -/
def skipGap (cs : List Char) : List Char :=
  cs.dropWhile isGap

/-- A text without the blanks at its start. -/
def trimStart (cs : List Char) : List Char :=
  cs.dropWhile isBlank

/-- A text without the blanks at its end. -/
def trimEnd (cs : List Char) : List Char :=
  (cs.reverse.dropWhile isBlank).reverse

/-- A text without the blanks at its ends. -/
def trim (cs : List Char) : List Char :=
  trimEnd (trimStart cs)

/-- A text without the blanks at its ends. -/
def trimmed (s : String) : String :=
  String.ofList (trim s.toList)

/-- Whether a text holds nothing but blanks. -/
def allBlank (s : String) : Bool :=
  s.toList.all isBlank

end SheetBinding.Text
