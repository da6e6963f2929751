/-!
Places in a text, as messages give them: lines and columns count from one, only
a line feed ends a line, and a column counts characters.
-/

namespace SheetBinding

/-- A line and a column. -/
structure Position where
  line : Nat
  column : Nat
  deriving DecidableEq, Repr

namespace Position

/-- The place that stands right after some text. -/
def after (before : List Char) : Position :=
  ⟨1 + before.count '\n', 1 + (before.reverse.takeWhile (· != '\n')).length⟩

/-- The place in `text` from which on `left` is what remains. -/
def ofLeft (text left : List Char) : Position :=
  after (text.take (text.length - left.length))

end Position

end SheetBinding
