import SheetBinding.Decimal.Rounding
import SheetBinding.Format.Fault
import SheetBinding.Format.Spec

/-!
Texts and whole numbers by specification. A whole number is written in base two,
eight, ten or sixteen, as the character of that number, or as a floating-point
number of 64 bits would be.
-/

namespace SheetBinding.Format

/-- A text by specification: cut to the precision and filled to the width. -/
def Spec.renderText? (s : Spec) (cs : List Char) : Option (List Char) :=
  if s.kind != 's' || s.sign.isSome || s.dropsNegativeZero || s.alternate ||
    s.align == .inside then
    none
  else
    let shown := s.precision.elim cs cs.take
    some (pad s.fill s.align s.width [] shown)

/-- A number by specification, given its sign, the mark of its base, its digits
before the point, and what follows them. -/
def Spec.layOut (s : Spec) (negative : Bool) (mark ds rest : List Char) :
    List Char :=
  let head := signText s.sign negative ++ mark
  let room : Int :=
    if s.fill == '0' && s.align == .inside then
      (s.width : Int) - (head.length + rest.length) else 0
  let grouped :=
    match s.separator with
    | none => zeroFilled ds room
    | some c => group (if "boxX".toList.contains s.kind then 4 else 3) c ds room
  pad s.fill s.align s.width head (grouped ++ rest)

/-- The digits of a natural number in another base than ten, small letters after
nine. -/
def digitsIn (base n : Nat) : List Char :=
  Nat.toDigits base n

/-- A whole number in the base that its kind asks for. -/
def Spec.renderBase (s : Spec) (v : Int) : List Char :=
  let negative := v < 0
  let n := v.natAbs
  let mark (c : Char) : List Char := if s.alternate then ['0', c] else []
  if s.kind == 'b' then s.layOut negative (mark 'b') (digitsIn 2 n) []
  else if s.kind == 'o' then s.layOut negative (mark 'o') (digitsIn 8 n) []
  else if s.kind == 'x' then s.layOut negative (mark 'x') (digitsIn 16 n) []
  else if s.kind == 'X' then
    s.layOut negative (mark 'X') ((digitsIn 16 n).map Char.toUpper) []
  else s.layOut negative [] (digitsIn 10 n) []

/-- The greatest number of a character. -/
def maxCharacter : Nat := 0x10FFFF

/-- The character of a number. -/
def Spec.renderCharacter (s : Spec) (v : Int) : Except Fault (List Char) :=
  if s.sign.isSome || s.alternate then .error .invalid
  else if v < 0 || (maxCharacter : Int) < v then .error .noCharacter
  else .ok (pad s.fill s.align s.width [] [Char.ofNat v.toNat])

/-- An exponent with its sign and two digits at least. -/
def powerText (e : Int) : List Char :=
  let ds := Decimal.digitsOf e.natAbs
  (if e < 0 then '-' else '+') :: (if ds.length < 2 then '0' :: ds else ds)

/-- The point before some digits; without digits it is written only on
demand. -/
def pointed (always : Bool) (ds : List Char) : List Char :=
  if ds.isEmpty && !always then [] else '.' :: ds

/-- The first digits of a natural number, as many as asked for, and the power of
ten that the first of them stands for. -/
def leadingDigits (n count : Nat) : List Char × Int :=
  if n == 0 then (List.replicate count '0', 0)
  else
    let d := (Decimal.ofInt n).toDigits count
    (d.digits, d.exponent + count - 1)

/-- One digit before the point, the others after it, and a power of ten. -/
def scientific (mark : Char) (always : Bool) (ds : List Char) (power : Int) :
    List Char × List Char :=
  (ds.take 1, pointed always (ds.drop 1) ++ mark :: powerText power)

/-- Digits without the zeros at their end. -/
def dropZeros (ds : List Char) : List Char :=
  (ds.reverse.dropWhile (· == '0')).reverse

/-- A natural number as a floating-point number is written: the digits before
the point, and what follows them. -/
def floatParts (kind : Char) (alternate : Bool) (precision n : Nat) :
    List Char × List Char :=
  let mark := if kind.isUpper then 'E' else 'e'
  if kind.toLower == 'e' then
    let (ds, power) := leadingDigits n (precision + 1)
    scientific mark alternate ds power
  else if kind.toLower == 'g' then
    let count := max precision 1
    let (ds, power) := leadingDigits n count
    if (count : Int) ≤ power then
      let shown := if alternate then ds else ds.take 1 ++ dropZeros (ds.drop 1)
      scientific mark alternate shown power
    else
      let whole := power.toNat + 1
      let fraction := ds.drop whole
      (ds.take whole, pointed alternate (if alternate then fraction
        else dropZeros fraction))
  else (Decimal.digitsOf n, pointed alternate (List.replicate precision '0'))

/-- A whole number written as a binary fraction. -/
def Spec.renderFloat (s : Spec) (v : Int) : List Char :=
  let negative := v < 0
  let n := toBinary64 v.natAbs
  let precision := s.precision.getD 6
  if s.kind == '%' then
    let (ds, rest) := floatParts 'f' s.alternate precision
      (toBinary64 (100 * n))
    s.layOut negative [] ds (rest ++ ['%'])
  else
    let (ds, rest) := floatParts s.kind s.alternate precision n
    s.layOut negative [] ds rest

/-- Floating-point numbers have no more places than this. -/
def maxPlaces : Nat := 2147483647

/-- A whole number by specification. -/
def Spec.renderWhole (s : Spec) (v : Int) : Except Fault (List Char) :=
  if "eEfFgG%".toList.contains s.kind then
    if s.precision.any (maxPlaces < ·) then .error .invalid
    else .ok (s.renderFloat v)
  else if !"bcdoxXn".toList.contains s.kind || s.precision.isSome ||
    s.dropsNegativeZero then
    .error .invalid
  else if s.kind == 'c' then s.renderCharacter v
  else .ok (s.renderBase v)

end SheetBinding.Format
