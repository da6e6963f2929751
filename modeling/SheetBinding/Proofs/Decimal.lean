import Mathlib.Data.List.Basic
import SheetBinding.Decimal

/-!
# Digits, and decimals written in full

Digits of every script are read, but only those of one are written. Written
digits are read as the number that they were written for
(`natOfDigits_digitsOf`), with any number of zeros before them.

A decimal whose exponent is at most zero can be written without a power of ten,
as its digits with a point among them. Zeros are put in front until there is a
digit on the left of the point; there need be none on its right. The number of
digits on the right is the exponent, so that it is not lost
(`ofDigits_pointed`).
-/

namespace SheetBinding

open Text

/-! ## Digits -/

namespace Text

/-- A property of written digits can be checked one digit at a time. -/
theorem forall_digit {p : Char → Prop} (h : ∀ n < 10, p (Char.ofNat (48 + n)))
    {c : Char} (hc : c.isDigit = true) : p c := by
  simp only [Char.isDigit, Bool.and_eq_true, decide_eq_true_eq] at hc
  have hlo : 48 ≤ c.toNat := hc.1
  have hhi : c.toNat ≤ 57 := hc.2
  have hp := h (c.toNat - 48) (by omega)
  rwa [show 48 + (c.toNat - 48) = c.toNat by omega, Char.ofNat_toNat] at hp

theorem digitValue?_eq {c : Char} (h : c.isDigit = true) :
    digitValue? c = some (c.toNat - 48) := by
  have hall : ∀ n < 10, digitValue? (Char.ofNat (48 + n)) =
      some ((Char.ofNat (48 + n)).toNat - 48) := by
    decide
  exact forall_digit (p := fun c => digitValue? c = some (c.toNat - 48)) hall h

theorem isDigit_of_written {c : Char} (h : c.isDigit = true) :
    isDigit c = true := by
  rw [isDigit, digitValue?_eq h]
  rfl

theorem natOfDigits_eq {ds : List Char} (h : ∀ c ∈ ds, c.isDigit = true) :
    natOfDigits ds = Nat.ofDigitChars 10 ds 0 := by
  rw [natOfDigits, Nat.ofDigitChars_eq_foldl]
  refine List.foldl_ext _ _ 0 fun n c hc => ?_
  rw [digitValue?_eq (h c hc)]
  rfl

end Text

namespace Decimal

theorem isDigit_of_mem_digitsOf {n : Nat} {c : Char} (h : c ∈ digitsOf n) :
    c.isDigit = true :=
  Nat.isDigit_of_mem_toDigits (by decide) (by decide) h

theorem digitsOf_ne_nil (n : Nat) : digitsOf n ≠ [] :=
  Nat.toDigits_ne_nil

theorem length_digitsOf_le {n k : Nat} (hk : 0 < k) (h : n < Nat.pow 10 k) :
    (digitsOf n).length ≤ k :=
  (Nat.length_toDigits_le_iff (by decide) hk).2 h

theorem natOfDigits_digitsOf (n : Nat) : natOfDigits (digitsOf n) = n := by
  rw [natOfDigits_eq fun c => isDigit_of_mem_digitsOf]
  exact Nat.ofDigitChars_ten_toDigits

/-- Zeros in front of digits. -/
def padded (k n : Nat) : List Char :=
  List.replicate (k - (digitsOf n).length) '0' ++ digitsOf n

theorem isDigit_of_mem_padded {k n : Nat} {c : Char} (h : c ∈ padded k n) :
    c.isDigit = true := by
  rcases List.mem_append.1 h with h | h
  · rw [List.eq_of_mem_replicate h]
    decide
  · exact isDigit_of_mem_digitsOf h

theorem natOfDigits_padded (k n : Nat) : natOfDigits (padded k n) = n := by
  rw [natOfDigits_eq fun c => isDigit_of_mem_padded, padded,
    Nat.ofDigitChars_append, Nat.ofDigitChars_replicate_zero]
  exact Nat.ofDigitChars_ten_toDigits

theorem le_length_padded (k n : Nat) : k ≤ (padded k n).length := by
  rw [padded, List.length_append, List.length_replicate]
  omega

/-! ## Signs -/

/-- The sign of a number; a plus is not written. -/
def signText (negative : Bool) : List Char :=
  if negative then ['-'] else []

theorem intText_eq (v : Int) :
    intText v = signText (decide (v < 0)) ++ digitsOf v.natAbs := by
  rw [intText, signText]
  by_cases h : v < 0
  · rw [if_pos h, if_pos (by simpa using h)]
    rfl
  · rw [if_neg h, if_neg (by simpa using h)]
    rfl

/-! ## Decimals written in full -/

/-- The digits on the left of the point. -/
def wholeDigits (d : Decimal) : List Char :=
  let ds := padded (d.exponent.natAbs + 1) d.coefficient
  ds.take (ds.length - d.exponent.natAbs)

/-- The digits on the right of the point. -/
def fractionDigits (d : Decimal) : List Char :=
  let ds := padded (d.exponent.natAbs + 1) d.coefficient
  ds.drop (ds.length - d.exponent.natAbs)

/-- A decimal as digits with a point. -/
def pointed (d : Decimal) : List Char :=
  signText d.negative ++ (d.wholeDigits ++ '.' :: d.fractionDigits)

theorem isDigit_of_mem_wholeDigits {d : Decimal} {c : Char}
    (h : c ∈ d.wholeDigits) :
    c.isDigit = true :=
  isDigit_of_mem_padded (List.mem_of_mem_take h)

theorem isDigit_of_mem_fractionDigits {d : Decimal} {c : Char}
    (h : c ∈ d.fractionDigits) :
    c.isDigit = true :=
  isDigit_of_mem_padded (List.mem_of_mem_drop h)

theorem wholeDigits_ne_nil (d : Decimal) : d.wholeDigits ≠ [] := by
  have hlength := le_length_padded (d.exponent.natAbs + 1) d.coefficient
  intro h
  have := congrArg List.length h
  rw [wholeDigits, List.length_take, List.length_nil] at this
  omega

/-- The digits of a decimal and the place of its point say all about it. -/
theorem ofDigits_pointed {d : Decimal} (h : d.exponent ≤ 0) :
    ofDigits d.negative d.wholeDigits d.fractionDigits = d := by
  have hlength := le_length_padded (d.exponent.natAbs + 1) d.coefficient
  have hfraction : (d.fractionDigits.length : Int) = -d.exponent := by
    rw [fractionDigits, List.length_drop]
    omega
  have hdigits : d.wholeDigits ++ d.fractionDigits =
      padded (d.exponent.natAbs + 1) d.coefficient := List.take_append_drop _ _
  rw [ofDigits, hdigits, natOfDigits_padded, hfraction, Int.neg_neg]

end Decimal

end SheetBinding
