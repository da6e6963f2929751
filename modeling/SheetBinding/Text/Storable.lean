/-!
Characters that a document can hold. Text, attribute names and attribute values
may hold any character but the control characters, tab, line feed and carriage
return excepted, and the two last code points of the basic plane.
-/

namespace SheetBinding.Text

/-- Whether a document can hold a character. -/
def isStorable (c : Char) : Bool :=
  let n := c.toNat
  !(n ≤ 8 || n == 11 || n == 12 || (14 ≤ n && n ≤ 31) || n ==
    0xFFFE || n == 0xFFFF)

/-- Whether a document can hold a text. -/
def storable (s : String) : Bool :=
  s.toList.all isStorable

/-- The text of the error for what no document can hold. -/
def unstorableMessage : String :=
  "All strings must be XML compatible: Unicode or ASCII, " ++
    "no NULL bytes or control characters"

end SheetBinding.Text
