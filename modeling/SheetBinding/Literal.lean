import SheetBinding.Scalar
import SheetBinding.Text.Blank
import SheetBinding.Text.Quotation

/-!
Literals. A scalar literal is a quoted text, a whole number, a decimal,
`<null>`, or any other text standing for itself; the first of these that fits
decides. A list literal is a comma-separated list of quoted texts and bare items
between square brackets, each of which is a scalar literal.
-/

namespace SheetBinding

/-- Why a literal cannot be evaluated. -/
inductive LiteralError where
  /-- A whole number has more digits than are converted. -/
  | tooManyDigits
  /-- A list item is a whole number with more digits than are converted. -/
  | itemTooManyDigits
  /-- The text is no list literal. -/
  | notAList (text : String)
  deriving DecidableEq, Repr

/-- The text of an error. -/
def LiteralError.message : LiteralError → String
  | tooManyDigits => "Whole number with too many digits"
  | itemTooManyDigits => "List item with too many digits"
  | notAList text =>
    "Unsupported binding source expression: " ++ Text.display text

namespace Literal

/-- The most digits, leading zeros included, that a whole number may be written
with. -/
def maxDigits : Nat := 4300

/-- The sign and the digits of a whole number, the sign optional. -/
def whole? (cs : List Char) : Option (Bool × List Char) :=
  let (negative, ds) := Decimal.takeSign cs
  if ds.isEmpty || !ds.all Text.isDigit then none else some (negative, ds)

/-- The sign, the digits before the point and those after it; one side may be
empty, not both. -/
def fraction? (cs : List Char) : Option (Bool × List Char × List Char) :=
  let (negative, rest) := Decimal.takeSign cs
  let before := rest.takeWhile Text.isDigit
  match rest.dropWhile Text.isDigit with
  | '.' :: after =>
    if after.all Text.isDigit && !(before.isEmpty && after.isEmpty) then
      some (negative, before, after)
    else none
  | _ => none

/-- A whole number takes the narrowest kind that holds it. -/
def ofWhole (negative : Bool) (ds : List Char) : Scalar :=
  let n := Text.natOfDigits ds
  let v : Int := if negative then -(n : Int) else n
  if Scalar.fitsInt32 v then .int32 v
  else if Scalar.fitsInt64 v then .int64 v
  else .decimal (Decimal.ofDigits negative ds [])

/-- The value of a literal without blanks at its ends. What is neither quoted
nor a number stands for its own text. -/
def ofTrimmed (cs : List Char) : Except LiteralError Scalar :=
  match Text.unquote? cs with
  | some inner => .ok (.text (String.ofList inner))
  | none =>
    match whole? cs with
    | some (negative, ds) =>
      if maxDigits < ds.length then .error .tooManyDigits
      else .ok (ofWhole negative ds)
    | none =>
      match fraction? cs with
      | some (negative, before, after) =>
        .ok (.decimal (Decimal.ofDigits negative before after))
      | none =>
        if cs == "<null>".toList then .ok .null
        else .ok (.text (String.ofList cs))

/-- The value of a literal. -/
def scalar (s : String) : Except LiteralError Scalar :=
  ofTrimmed (Text.trim s.toList)

/-- A character that may stand inside a bare list item. -/
def isBare (c : Char) : Bool :=
  !(c == '\\' || c == '\'' || c == '"' || c == ',' || c == '[' || c == ']')

/-- Reads one item: a quoted stretch with its quotes, or the longest run of bare
characters that neither starts nor ends with a blank. Gives the item and what
follows it. -/
def item? : List Char → Option (List Char × List Char)
  | [] => none
  | c :: rest =>
    if Text.isQuote c then
      (Text.closeQuote? c rest).map fun (inner, after) =>
        (c :: inner ++ [c], after)
    else if isBare c && !Text.isBlank c then
      let run := (c :: rest).takeWhile isBare
      let item := Text.trimEnd run
      some (item, (c :: rest).drop item.length)
    else none

/-- Reads items from the first one to the closing bracket, which must end the
text. Each round reads an item and the comma after it, so as many rounds as
there are characters are enough. -/
def itemsWithin : Nat → List Char → Option (List (List Char))
  | 0, _ => none
  | rounds + 1, cs =>
    match item? (Text.skipGap cs) with
    | none => none
    | some (item, rest) =>
      match Text.skipGap rest with
      | [']'] => some [item]
      | ',' :: more => (itemsWithin rounds more).map (item :: ·)
      | _ => none

/-- The items of a list as they are written, from its opening bracket to the
end. -/
def items? : List Char → Option (List (List Char))
  | '[' :: rest =>
    if Text.skipGap rest == [']'] then some [] else itemsWithin rest.length rest
  | _ => none

/-- The values of list items, in order. -/
def ofItems : List (List Char) → Except LiteralError (List Scalar)
  | [] => .ok []
  | item :: rest =>
    match ofTrimmed (Text.trim item) with
    | .error _ => .error .itemTooManyDigits
    | .ok value => (ofItems rest).map (value :: ·)

/-- The values of a list. -/
def list (s : String) : Except LiteralError (List Scalar) :=
  let cs := Text.trim s.toList
  match items? cs with
  | some items => ofItems items
  | none => .error (.notAList (String.ofList cs))

end Literal

end SheetBinding
