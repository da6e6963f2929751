import SheetBinding.Text.Digit

/-!
Decimal numbers that remember how they were written: a sign, the digits as one
natural number, and the power of ten that scales them. `1.5` and `1.50` are
different decimals of equal value, and so are `0.0` and `-0.0`.
-/

namespace SheetBinding

/-- The number `± coefficient · 10 ^ exponent`. -/
structure Decimal where
  negative : Bool
  coefficient : Nat
  exponent : Int
  deriving DecidableEq, Repr

namespace Decimal

/-- The digits of a natural number in base ten, most significant first; zero has
one digit. -/
def digitsOf (n : Nat) : List Char :=
  Nat.toDigits 10 n

/-- The text of a whole number. -/
def intText (v : Int) : List Char :=
  if v < 0 then '-' :: digitsOf v.natAbs else digitsOf v.natAbs

/-- A whole number as a decimal. -/
def ofInt (v : Int) : Decimal :=
  ⟨decide (v < 0), v.natAbs, 0⟩

/-- The decimal that a sign, the digits before the point and those after it
spell. -/
def ofDigits (negative : Bool) (whole fraction : List Char) : Decimal :=
  ⟨negative, Text.natOfDigits (whole ++ fraction), -(fraction.length : Int)⟩

/-- The digits of a decimal, without sign and point. -/
def digits (d : Decimal) : List Char :=
  digitsOf d.coefficient

/-- Where the point stands, counted from the first digit of the coefficient. -/
def pointPlace (d : Decimal) : Int :=
  d.digits.length + d.exponent

/-- Digits with a point after the first `place` of them; zeros fill the gap on
either side, and no point is written after the last digit. -/
def placePoint (ds : List Char) (place : Int) : List Char :=
  if place ≤ 0 then '0' :: '.' :: (List.replicate place.natAbs '0' ++ ds)
  else if ds.length ≤ place.toNat then
    ds ++ List.replicate (place.toNat - ds.length) '0'
  else ds.take place.toNat ++ '.' :: ds.drop place.toNat

/-- The text of an exponent, with its sign. -/
def exponentText (e : Int) : List Char :=
  (if e < 0 then '-' else '+') :: digitsOf e.natAbs

/-- Digits are written out in full while the exponent is at most zero and at
most five zeros have to be put in behind the point; otherwise one digit stands
before the point and a power of ten follows. -/
def unsignedText (d : Decimal) : List Char :=
  let place := d.pointPlace
  if d.exponent ≤ 0 && -6 < place then placePoint d.digits place
  else placePoint d.digits 1 ++ 'E' :: exponentText (place - 1)

/-- The text of a decimal, with its sign. -/
def toText (d : Decimal) : String :=
  String.ofList ((if d.negative then ['-'] else []) ++ d.unsignedText)

/-- The digits of a decimal as a number with its sign. -/
def signed (d : Decimal) : Int :=
  if d.negative then -(d.coefficient : Int) else d.coefficient

/-- Whether two decimals have the same value: brought to the smaller of the two
exponents, their coefficients agree. -/
def sameValue (a b : Decimal) : Bool :=
  let low := min a.exponent b.exponent
  a.signed * Nat.pow 10 (a.exponent - low).toNat ==
    b.signed * Nat.pow 10 (b.exponent - low).toNat

/-- Reads an optional sign: whether it is a minus, and what follows. -/
def takeSign : List Char → Bool × List Char
  | '-' :: rest => (true, rest)
  | '+' :: rest => (false, rest)
  | cs => (false, cs)

/-- The exponent that a text spells, if it spells one. -/
def powerOfText? (cs : List Char) : Option Int :=
  let (negative, ds) := takeSign cs
  if ds.isEmpty || !ds.all Text.isDigit then none
  else
    let n : Int := Text.natOfDigits ds
    some (if negative then -n else n)

/-- Reads the text of a decimal: a sign, digits with at most one point, and a
power of ten. -/
def ofText? (s : String) : Option Decimal :=
  let (negative, cs) := takeSign s.toList
  let whole := cs.takeWhile Text.isDigit
  let (fraction, rest) :=
    match cs.dropWhile Text.isDigit with
    | '.' :: more => (more.takeWhile Text.isDigit, more.dropWhile Text.isDigit)
    | other => ([], other)
  if whole.isEmpty && fraction.isEmpty then none
  else
    let base := ofDigits negative whole fraction
    match rest with
    | [] => some base
    | e :: power =>
      if e == 'E' || e == 'e' then
        (powerOfText? power).map fun p =>
          { base with exponent := base.exponent + p }
      else none

end Decimal

end SheetBinding
