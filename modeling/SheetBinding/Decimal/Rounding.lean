import SheetBinding.Decimal

/-!
Rounding to the nearest, a tie going to the even neighbour.
-/

namespace SheetBinding

/-- The quotient of two natural numbers, rounded. -/
def roundedQuotient (n d : Nat) : Nat :=
  let q := n / d
  let twice := 2 * (n % d)
  if twice < d then q
  else if d < twice then q + 1
  else if q % 2 == 0 then q
  else q + 1

namespace Decimal

/-- A decimal brought to another exponent, rounded if that is the greater
one. -/
def rescale (d : Decimal) (exponent : Int) : Decimal :=
  let shift := exponent - d.exponent
  let coefficient :=
    if shift ≤ 0 then d.coefficient * Nat.pow 10 shift.natAbs
    else roundedQuotient d.coefficient (Nat.pow 10 shift.toNat)
  ⟨d.negative, coefficient, exponent⟩

/-- A decimal that is not zero, brought to a given number of digits. Rounding up
to the next power of ten gives one digit more, which is dropped again. -/
def toDigits (d : Decimal) (count : Nat) : Decimal :=
  let shift : Int := d.digits.length - count
  let rounded := d.rescale (d.exponent + shift)
  if count < rounded.digits.length then rounded.rescale (rounded.exponent + 1)
  else rounded

/-- Whether a decimal is zero, of either sign. -/
def isZero (d : Decimal) : Bool :=
  d.coefficient == 0

end Decimal

/-- A natural number rounded to 53 significant binary digits, which is what a
floating-point number of 64 bits holds of it. -/
def toBinary64 (n : Nat) : Nat :=
  let unit := Nat.pow 2 (n.log2 - 52)
  roundedQuotient n unit * unit

end SheetBinding
