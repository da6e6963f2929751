import SheetBinding.Format.Layout
import SheetBinding.Text.Digit

/-!
Format specifications for texts and whole numbers: fill and alignment, sign,
handling of a negative zero, alternate form, zero fill, width, separator,
precision and kind, each of them optional and in this order.
-/

namespace SheetBinding.Format

/-- What a specification asks for. -/
structure Spec where
  fill : Char
  align : Align
  sign : Option Char
  dropsNegativeZero : Bool
  alternate : Bool
  width : Nat
  separator : Option Char
  precision : Option Nat
  kind : Char
  deriving Repr

/-- Numbers in a specification are no greater than this. -/
def Spec.maxNumber : Nat := 9223372036854775807

/-- Takes a character off the front, and tells whether it was there. -/
def takeFlag (c : Char) (cs : List Char) : Bool × List Char :=
  match cs with
  | [] => (false, [])
  | d :: rest => if d == c then (true, rest) else (false, cs)

/-- Reads a number: none if there are no digits. Fails if the number is too
great. -/
def takeNumber? (cs : List Char) : Option (Option Nat × List Char) :=
  let ds := cs.takeWhile Text.isDigit
  if ds.isEmpty then some (none, cs)
  else
    let n := Text.natOfDigits ds
    if Spec.maxNumber < n then none
    else some (some n, cs.dropWhile Text.isDigit)

/-- Reads a precision after its point, if there is one. -/
def takePrecision? (cs : List Char) : Option (Option Nat × List Char) :=
  match cs with
  | '.' :: rest =>
    match takeNumber? rest with
    | some (some n, left) => some (some n, left)
    | _ => none
  | _ => some (none, cs)

/-- Reads a separator, of which there is at most one. -/
def takeSeparator? (cs : List Char) : Option (Option Char × List Char) :=
  match cs with
  | ',' :: '_' :: _ => none
  | '_' :: ',' :: _ => none
  | ',' :: rest => some (some ',', rest)
  | '_' :: rest => some (some '_', rest)
  | _ => some (none, cs)

/-- Whether numbers of a kind can have their digits divided by a separator. -/
def separable (kind separator : Char) : Bool :=
  "defgEG%F".toList.contains kind ||
    (separator == '_' && "boxX".toList.contains kind)

/-- Reads a specification for values whose alignment and kind are the given ones
if it names none. -/
def Spec.ofText? (align : Align) (kind : Char) (cs : List Char) :
    Option Spec := do
  let (fill, aligned, cs) := takeAlign cs
  let (sign, cs) := Format.takeSign cs
  let (dropsNegativeZero, cs) := takeFlag 'z' cs
  let (alternate, cs) := takeFlag '#' cs
  let (zero, cs) := if fill.isNone then takeFlag '0' cs else (false, cs)
  let (width, cs) ← takeNumber? cs
  let (separator, cs) ← takeSeparator? cs
  let (precision, cs) ← takePrecision? cs
  let kind ←
    match cs with
    | [] => some kind
    | [c] => some c
    | _ => none
  guard (separator.all (separable kind))
  return {
    fill := fill.getD (if zero then '0' else ' ')
    align := aligned.getD (if zero && align == .right then .inside else align)
    sign, dropsNegativeZero, alternate
    width := width.getD 0
    separator, precision, kind }

end SheetBinding.Format
