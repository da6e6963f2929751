import SheetBinding.Decimal.Rounding
import SheetBinding.Format.Layout

/-!
Decimals by specification. A decimal has specifications of its own: zero fill
excludes an alignment, digits are grouped by commas only, and without a
precision all digits are written as they stand. There is no alternate form, and
the general kind can be asked for by the letter of the place in both its cases.
-/

namespace SheetBinding.Format

/-- What a specification asks for. -/
structure DecimalSpec where
  fill : Char
  align : Align
  /-- Zeros go between the sign and the digits, and take separators. -/
  zeroFill : Bool
  sign : Option Char
  dropsNegativeZero : Bool
  width : Nat
  separated : Bool
  precision : Option Nat
  kind : Char
  deriving Repr

/-- The greatest width and precision. -/
def DecimalSpec.maxNumber : Nat := 999999999999999999

/-- Takes the mark that asks for negative zeros to be written without sign out
of a specification; it stands after fill, alignment and sign. -/
def takeZeroMark (cs : List Char) : Bool × List Char :=
  let (_, _, rest) := takeAlign cs
  let (_, rest) := Format.takeSign rest
  match rest with
  | 'z' :: after => (true, cs.take (cs.length - rest.length) ++ after)
  | _ => (false, cs)

/-- Reads a width, which has no zero in front. -/
def takeWidth? (cs : List Char) : Option (Nat × List Char) :=
  if cs.head? == some '0' then none
  else
    let n := Text.natOfDigits (cs.takeWhile Char.isDigit)
    if DecimalSpec.maxNumber < n then none
    else some (n, cs.dropWhile Char.isDigit)

/-- Takes the number of places after a point. Nothing if it is missing or too
great. -/
def takePlaces? (cs : List Char) : Option (Option Nat × List Char) :=
  match cs with
  | '.' :: rest =>
    let ds := rest.takeWhile Char.isDigit
    let n := Text.natOfDigits ds
    if ds.isEmpty || DecimalSpec.maxNumber < n then none
    else some (some n, rest.dropWhile Char.isDigit)
  | _ => some (none, cs)

/-- Reads the kind that ends a specification. The kind of the place is the
general one, written without separators. -/
def takeKind? (separated : Bool) (cs : List Char) : Option Char :=
  match cs with
  | [] => some 'G'
  | [c] =>
    if "eEfFgG%".toList.contains c then some c
    else if separated then none
    else if c == 'n' then some 'g'
    else if c == 'N' then some 'G'
    else none
  | _ => none

/-- The part of a specification that counts: it ends at the first null
character, which can stand for the fill only. -/
def beforeNull (cs : List Char) : List Char :=
  cs.take 1 ++ (cs.drop 1).takeWhile (· != '\x00')

/-- Whether there is a number in a text that is greater than a bound. -/
def holdsGreater (bound : Nat) : List Char → Bool
  | [] => false
  | c :: rest =>
    bound < Text.natOfDigits ((c :: rest).takeWhile Text.isDigit) ||
      holdsGreater bound rest

/-- Whether there is a number in a specification that is greater than any width
and precision. -/
def DecimalSpec.exceeds (cs : List Char) : Bool :=
  holdsGreater maxNumber (beforeNull cs)

/-- The specification for decimals that a text spells. -/
def DecimalSpec.ofText? (cs : List Char) : Option DecimalSpec := do
  let (dropsNegativeZero, cs) := takeZeroMark (beforeNull cs)
  let (fill, align, cs) := takeAlign cs
  let (sign, cs) := Format.takeSign cs
  let (zeroFill, cs) :=
    match cs with
    | '0' :: rest => (true, rest)
    | _ => (false, cs)
  guard !(zeroFill && align.isSome)
  let (width, cs) ← takeWidth? cs
  let (separated, cs) :=
    match cs with
    | ',' :: rest => (true, rest)
    | _ => (false, cs)
  let (precision, cs) ← takePlaces? cs
  let kind ← takeKind? separated cs
  return {
    fill := fill.getD ' '
    align := align.getD .right
    zeroFill, sign, dropsNegativeZero, width, separated, precision, kind }

namespace DecimalSpec

/-- Whether digits are written out up to a fixed place. -/
def isFixed (s : DecimalSpec) : Bool :=
  s.kind.toLower == 'f' || s.kind == '%'

/-- Whether a power of ten is always written. -/
def isScientific (s : DecimalSpec) : Bool :=
  s.kind.toLower == 'e'

/-- A decimal brought to the digits that are asked for. -/
def rounded (s : DecimalSpec) (d : Decimal) : Decimal :=
  let d := if s.kind == '%' then { d with exponent := d.exponent + 2 } else d
  let d :=
    match s.precision with
    | none => d
    | some p =>
      if s.isFixed then d.rescale (-(p : Int))
      else if s.isScientific then (if d.isZero then d else d.toDigits (p + 1))
      else if max p 1 < d.digits.length then d.toDigits (max p 1)
      else d
  if s.isFixed && d.isZero && 0 < d.exponent then
    { d with exponent := 0 } else d

/-- Where the point stands in a rounded decimal, counted from its first
digit. -/
def place (s : DecimalSpec) (d : Decimal) : Int :=
  if s.isFixed then d.pointPlace
  else if s.isScientific then
    match s.precision with
    | some p => if d.isZero then 1 - (p : Int) else 1
    | none => 1
  else if d.exponent ≤ 0 && -6 < d.pointPlace then d.pointPlace
  else 1

/-- The digits of a rounded decimal with the point, the power of ten, and the
per cent sign. -/
def numeral (s : DecimalSpec) (d : Decimal) : List Char :=
  let place := s.place d
  let power :=
    if s.isScientific || place != d.pointPlace then
      (if s.kind.isUpper then 'E' else 'e') ::
        Decimal.exponentText (d.pointPlace - place)
    else []
  Decimal.placePoint d.digits place ++ power ++
    (if s.kind == '%' then ['%'] else [])

/-- Zeros that fill a width from the right, groups of three being separated by
commas. The zeros first fill up a group that has `slots` places left. A comma
counts as a place, unless it would stand first. -/
def zeroGroups : Nat → Nat → Nat → List Char
  | 0, _, _ => []
  | rounds + 1, slots, room =>
    let zeros := List.replicate (min slots room) '0'
    let left := room - slots
    if left == 0 then zeros
    else zeroGroups rounds 3 (if 1 < left then left - 1 else left) ++
      ',' :: zeros

/-- Zeros that go before some digits to fill the given room. -/
def zerosBefore (s : DecimalSpec) (ds : List Char) (room : Nat) : List Char :=
  if !s.zeroFill || room == 0 then []
  else if s.separated then zeroGroups (room + 1) ((3 - ds.length % 3) % 3) room
  else List.replicate room '0'

/-- Whether a number is shown as negative. A negative number that the format
shows as zero is not, if that is asked for; only the kinds written with a small
letter or a sign look at the digits that are shown. -/
def showsMinus (s : DecimalSpec) (d : Decimal) : Bool :=
  let shown := if s.kind.isUpper then d else s.rounded d
  d.negative && !(s.dropsNegativeZero && shown.isZero)

/-- A decimal by specification. -/
def render (s : DecimalSpec) (d : Decimal) : List Char :=
  let numeral := s.numeral (s.rounded d)
  let ds := numeral.takeWhile Char.isDigit
  let rest := numeral.dropWhile Char.isDigit
  let grouped := if s.separated then group 3 ',' ds 0 else ds
  let head := signText s.sign (s.showsMinus d)
  let room := s.width - (head.length + grouped.length + rest.length)
  pad s.fill s.align s.width head (s.zerosBefore ds room ++ grouped ++ rest)

end DecimalSpec

end SheetBinding.Format
