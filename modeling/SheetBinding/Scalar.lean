import SheetBinding.Decimal
import SheetBinding.Text.Display

/-!
The values that a sheet binds: texts, whole numbers of two widths, decimals, and
null. A whole number keeps the width that it needs, so that messages can name
it, but numbers of equal value are equal whatever they were written as.
-/

namespace SheetBinding

/-- A value that can be bound to an element. -/
inductive Scalar where
  | text (value : String)
  | int32 (value : Int)
  | int64 (value : Int)
  | decimal (value : Decimal)
  | null
  deriving DecidableEq, Repr

namespace Scalar

/-- Whether a whole number has a place in 32 bits. -/
def fitsInt32 (v : Int) : Bool :=
  -2147483648 ≤ v && v ≤ 2147483647

/-- Whether a whole number has a place in 64 bits. -/
def fitsInt64 (v : Int) : Bool :=
  -9223372036854775808 ≤ v && v ≤ 9223372036854775807

/-- The text of a whole number. -/
def wholeText (v : Int) : String :=
  String.ofList (Decimal.intText v)

/-- A value as it is written into a document without a format; null writes
nothing. -/
def plainText : Scalar → String
  | text s => s
  | int32 v => wholeText v
  | int64 v => wholeText v
  | decimal d => d.toText
  | null => ""

/-- A value as messages show it, its kind included. -/
def display : Scalar → String
  | text s => Text.display s
  | int32 v => "Int32(" ++ wholeText v ++ ")"
  | int64 v => "Int64(" ++ wholeText v ++ ")"
  | decimal d => "Decimal('" ++ d.toText ++ "')"
  | null => "None"

/-- The number that a value denotes, if it is one. -/
def number? : Scalar → Option Decimal
  | int32 v => some (Decimal.ofInt v)
  | int64 v => some (Decimal.ofInt v)
  | decimal d => some d
  | _ => none

/-- Equality of values: texts by their characters, numbers by their value. -/
def sameValue (a b : Scalar) : Bool :=
  match a, b with
  | text s, text t => s == t
  | null, null => true
  | _, _ =>
    match a.number?, b.number? with
    | some x, some y => x.sameValue y
    | _, _ => false

/-- Equality of lists of values, place by place. -/
def sameValues : List Scalar → List Scalar → Bool
  | [], [] => true
  | a :: as, b :: bs => a.sameValue b && sameValues as bs
  | _, _ => false

end Scalar

end SheetBinding
