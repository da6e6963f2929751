/-!
Why a format cannot render a value. Most causes make the format invalid for the
value; the others are faults of the value that the format asks too much of.
-/

namespace SheetBinding.Format

/-- Why a format cannot render a value. -/
inductive Fault where
  /-- The format is malformed, or does not fit the value. -/
  | invalid
  /-- Values of a kind have no part of this name. -/
  | noPart (kind name : String)
  /-- What values of a kind have of this name is left out of account. -/
  | leftOut (kind name : String)
  /-- Values of a kind have no items. -/
  | noItems (kind : String)
  /-- The items of a text are numbered, not named. -/
  | namedItem
  /-- Null has no format but the empty one. -/
  | nullFormat
  /-- No character has this number. -/
  | noCharacter
  /-- A number in a specification is beyond the limits of decimals. -/
  | beyondLimits
  deriving DecidableEq, Repr

/-- Whether a format is told to be invalid. -/
def Fault.isInvalid : Fault → Bool
  | invalid | beyondLimits => true
  | _ => false

/-- The text of the cause, for a value and a format as messages show them. A
part that is left out of account may be none at all, and then it is told like
one that is not there. -/
def Fault.message (value format : String) : Fault → String
  | invalid | beyondLimits => "Cannot format " ++ value ++ " with " ++ format
  | noPart kind name | leftOut kind name =>
    "'" ++ kind ++ "' object has no attribute '" ++ name ++ "'"
  | noItems kind => "'" ++ kind ++ "' object is not subscriptable"
  | namedItem => "string indices must be integers, not 'str'"
  | nullFormat => "unsupported format string passed to NoneType.__format__"
  | noCharacter => "Character number out of range"

end SheetBinding.Format
