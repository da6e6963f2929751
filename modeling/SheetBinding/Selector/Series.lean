import SheetBinding.Selector.Token
import SheetBinding.Text.Lowercase
import SheetBinding.Text.Digit
import SheetBinding.Literal

/-!
Series of positions, as the counting pseudo-classes take them: `odd`, `even`, a
whole number, or `a n + b` with either part left out.
-/

namespace SheetBinding.Selector

/-- Digits, single underscores between them let pass, as a number. -/
def groupedDigits? : List Char → Option (List Char)
  | [] => none
  | [c] => if Text.isDigit c then some [c] else none
  | c :: '_' :: rest =>
    if Text.isDigit c then (groupedDigits? rest).map (c :: ·) else none
  | c :: rest =>
    if Text.isDigit c then (groupedDigits? rest).map (c :: ·) else none

/-- The number that a text spells, underscores between its digits let pass. -/
def wholeNumber? (cs : List Char) : Option Int :=
  let (negative, rest) := Decimal.takeSign (Text.trim cs)
  match groupedDigits? rest with
  | none => none
  | some ds =>
    if Literal.maxDigits < ds.length then none
    else
      let n : Int := Text.natOfDigits ds
      some (if negative then -n else n)

/-- The factor before the `n`: one if it is left out, and a sign alone stands
for one of that sign. -/
def seriesStep? (cs : List Char) : Option Int :=
  if cs == [] || cs == ['+'] then some 1
  else if cs == ['-'] then some (-1)
  else wholeNumber? cs

/-- The step and the start of a series. -/
def series? (cs : List Char) : Option (Int × Int) :=
  if cs == "odd".toList then some (2, 1)
  else if cs == "even".toList then some (2, 0)
  else
    match cs.dropWhile (· != 'n') with
    | [] => (wholeNumber? cs).map fun start => (0, start)
    | _ :: after =>
      match seriesStep? (cs.takeWhile (· != 'n')), after with
      | some step, [] => some (step, 0)
      | some step, _ => (wholeNumber? after).map fun start => (step, start)
      | none, _ => none

/-- The text of an argument of a series; strings have no place in one. -/
def seriesText? : Token → Option (List Char)
  | .ident name => some name.toList
  | .number text => some text.toList
  | .delim c => some [c]
  | _ => none

/-- The series that the arguments of a pseudo-class spell, blanks between them
left out. -/
def seriesOf? (arguments : List Token) : Option (Int × Int) :=
  match arguments.mapM seriesText? with
  | none => none
  | some parts => series? (Text.lower (Text.trim parts.flatten))

end SheetBinding.Selector
