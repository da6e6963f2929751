/-!
Classes of characters given as tables of code point ranges. A table lists its
ranges in rising order; a class is the set of characters that fall into one of
them.
-/

namespace SheetBinding.Text

/-- Whether a character's code point lies in one of the closed ranges of a
table. -/
def inRanges (table : List (Nat × Nat)) (c : Char) : Bool :=
  table.any fun range => range.1 ≤ c.toNat && c.toNat ≤ range.2

end SheetBinding.Text
