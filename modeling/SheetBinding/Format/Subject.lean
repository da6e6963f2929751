import SheetBinding.Format.Fractional
import SheetBinding.Format.Plain
import SheetBinding.Scalar

/-!
What a field of a template can stand for: a value, or a part of one. The parts
of a number are its real and imaginary part and, if it is whole, its numerator
and denominator; the items of a text are its characters.
-/

namespace SheetBinding.Format

/-- A value, or a whole number that is part of one and has no width. -/
inductive Subject where
  | value (s : Scalar)
  | whole (v : Int)
  deriving DecidableEq, Repr

namespace Subject

/-- The name of a kind of values, as messages give it. -/
def kindName : Subject → String
  | value (.text _) => "str"
  | value (.int32 _) => "Int32"
  | value (.int64 _) => "Int64"
  | value (.decimal _) => "decimal.Decimal"
  | value .null => "NoneType"
  | whole _ => "int"

/-- A text as a subject. -/
def ofChars (cs : List Char) : Subject :=
  value (.text (String.ofList cs))

/-- A part of a whole number. -/
def wholePart? (v : Int) (name : String) : Option Subject :=
  if name == "real" || name == "numerator" then some (whole v)
  else if name == "imag" then some (whole 0)
  else if name == "denominator" then some (whole 1)
  else none

/-- A part of a subject that is a datum. -/
def part? (s : Subject) (name : String) : Option Subject :=
  match s with
  | value (.int32 v) => wholePart? v name
  | value (.int64 v) => wholePart? v name
  | whole v => wholePart? v name
  | value (.decimal d) =>
    if name == "real" then some (value (.decimal d))
    else if name == "imag" then some (value (.decimal ⟨false, 0, 0⟩))
    else none
  | _ => none

/-- The names of what can be done with a text. -/
def textActions : List String :=
  ["capitalize", "casefold", "center", "count", "encode", "endswith",
    "expandtabs", "find", "format", "format_map", "index", "isalnum", "isalpha",
    "isascii", "isdecimal", "isdigit", "isidentifier", "islower", "isnumeric",
    "isprintable", "isspace", "istitle", "isupper", "join", "ljust", "lower",
    "lstrip", "maketrans", "partition", "removeprefix", "removesuffix",
    "replace", "rfind", "rindex", "rjust", "rpartition", "rsplit", "rstrip",
    "split", "splitlines", "startswith", "strip", "swapcase", "title",
    "translate", "upper", "zfill"]

/-- The names of what can be done with a whole number. -/
def wholeActions : List String :=
  ["as_integer_ratio", "bit_count", "bit_length", "conjugate", "from_bytes",
    "is_integer", "to_bytes"]

/-- The names of what can be done with a decimal. -/
def decimalActions : List String :=
  ["adjusted", "as_integer_ratio", "as_tuple", "canonical", "compare",
    "compare_signal", "compare_total", "compare_total_mag", "conjugate",
    "copy_abs", "copy_negate", "copy_sign", "exp", "fma", "from_float",
    "is_canonical", "is_finite", "is_infinite", "is_nan", "is_normal",
    "is_qnan", "is_signed", "is_snan", "is_subnormal", "is_zero", "ln",
    "log10", "logb", "logical_and", "logical_invert", "logical_or",
    "logical_xor", "max", "max_mag", "min", "min_mag", "next_minus",
    "next_plus", "next_toward", "normalize", "number_class", "quantize",
    "radix", "remainder_near", "rotate", "same_quantum", "scaleb", "shift",
    "sqrt", "to_eng_string", "to_integral", "to_integral_exact",
    "to_integral_value"]

/-- The names of what can be done with a subject. -/
def actions : Subject → List String
  | value (.text _) => textActions
  | value (.int32 _) | value (.int64 _) | whole _ => wholeActions
  | value (.decimal _) => decimalActions
  | value .null => []

/-- Whether a name is one of those that are left out of account: something that
can be done with the subject, or, after two underscores, something that the
language gives to all values. -/
def leavesOut (s : Subject) (name : String) : Bool :=
  "__".toList.isPrefixOf name.toList || s.actions.contains name

/-- Why a subject has no datum of a name. -/
def lack (s : Subject) (name : String) : Fault :=
  if s.leavesOut name then .leftOut s.kindName name
  else .noPart s.kindName name

theorem lack_ne_invalid (s : Subject) (name : String) :
    s.lack name ≠ .invalid := by
  unfold lack
  split <;> exact nofun

/-- What a step to a part leads to. -/
def part (s : Subject) (name : List Char) : Except Fault Subject :=
  let name := String.ofList name
  match s.part? name with
  | some p => .ok p
  | none => .error (s.lack name)

/-- The item of a subject, by its number if it has one; only a text has items,
and all of them are numbered. -/
def item (s : Subject) (number : Option Nat) : Except Fault Subject :=
  match s, number with
  | value (.text t), some n =>
    match t.toList[n]? with
    | some c => .ok (ofChars [c])
    | none => .error .invalid
  | value (.text _), none => .error .namedItem
  | s, _ => .error (.noItems s.kindName)

/-- A subject as it is written. -/
def plainText : Subject → List Char
  | value .null => "None".toList
  | value s => s.plainText.toList
  | whole v => Decimal.intText v

/-- A subject as it is shown. -/
def display : Subject → List Char
  | value s => s.display.toList
  | whole v => Decimal.intText v

/-- A subject as it is shown in ASCII. -/
def displayAscii : Subject → List Char
  | value (.text t) => (Text.displayAscii t).toList
  | s => s.display

/-- A subject converted as a field asks: shown, shown in ASCII, or written;
without a conversion, or with a null character for one, it stays as it is. -/
def convert (s : Subject) (conversion : Option Char) : Except Fault Subject :=
  match conversion with
  | none => .ok s
  | some c =>
    if c == 'r' then .ok (ofChars s.display)
    else if c == 'a' then .ok (ofChars s.displayAscii)
    else if c == 's' then .ok (ofChars s.plainText)
    else if c == '\x00' then .ok s
    else .error .invalid

/-- The value of an optional rendering; without one the specification is
invalid. -/
def orInvalid (rendered : Option (List Char)) : Except Fault (List Char) :=
  match rendered with
  | some cs => .ok cs
  | none => .error .invalid

/-- A whole number by specification. -/
def renderWhole (v : Int) (spec : List Char) : Except Fault (List Char) :=
  match Spec.ofText? .right 'd' spec with
  | some s => s.renderWhole v
  | none => .error .invalid

/-- A subject by specification; the empty one writes it as it is. -/
def render (s : Subject) (spec : List Char) : Except Fault (List Char) :=
  if spec.isEmpty then .ok s.plainText
  else
    match s with
    | value (.text t) =>
      orInvalid ((Spec.ofText? .left 's' spec).bind fun sp =>
        sp.renderText? t.toList)
    | value (.int32 v) => renderWhole v spec
    | value (.int64 v) => renderWhole v spec
    | whole v => renderWhole v spec
    | value (.decimal d) =>
      if DecimalSpec.exceeds spec then .error .beyondLimits
      else orInvalid ((DecimalSpec.ofText? spec).map fun sp => sp.render d)
    | value .null => .error .nullFormat

end Subject

end SheetBinding.Format
