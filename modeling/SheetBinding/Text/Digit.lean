/-!
Decimal digits of every script. Unicode keeps the ten digits of a script in one
run of ten code points, zero first, so the value of a digit is its distance from
the zero of its run.
-/

namespace SheetBinding.Text

/-- The code points of the zeros of all scripts. -/
def digitZeros : List Nat := [
  48, 1632, 1776, 1984, 2406, 2534, 2662, 2790, 2918, 3046, 3174, 3302, 3430,
  3558, 3664, 3792, 3872, 4160, 4240, 6112, 6160, 6470, 6608, 6784, 6800, 6992,
  7088, 7232, 7248, 42528, 43216, 43264, 43472, 43504, 43600, 44016, 65296,
  66720, 68912, 69734, 69872, 69942, 70096, 70384, 70736, 70864, 71248, 71360,
  71472, 71904, 72016, 72784, 73040, 73120, 92768, 92864, 93008, 120782, 120792,
  120802, 120812, 120822, 123200, 123632, 125264, 130032]

/-- The value of a decimal digit, from 0 to 9; nothing for any other
character. -/
def digitValue? (c : Char) : Option Nat :=
  let n := c.toNat
  if n < 0x660 then
    if 48 ≤ n && n ≤ 57 then some (n - 48) else none
  else
    (digitZeros.find? fun start => start ≤ n && n ≤ start + 9).map (n - ·)

/-- Whether a character is a decimal digit, in whatever script. -/
def isDigit (c : Char) : Bool :=
  (digitValue? c).isSome

/-- The number that a run of digits denotes in base ten; a character that is no
digit counts as zero. -/
def natOfDigits (cs : List Char) : Nat :=
  cs.foldl (fun acc c => 10 * acc + (digitValue? c).getD 0) 0

end SheetBinding.Text
