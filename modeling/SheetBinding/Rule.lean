import SheetBinding.Scalar
import SheetBinding.Selector
import SheetBinding.Settings

/-!
Rules. A rule says which elements it binds, which values it binds to them, and
where in each element and in which form a value is written. It keeps the
settings that it was made from, so that it can be written down again.
-/

namespace SheetBinding

/-- What a rule binds. -/
inductive SourceType where
  /-- One object to each element, which no binding does yet. -/
  | object
  /-- The items of a list, one to an element. -/
  | enumerable
  /-- Something that is no known kind of source. -/
  | unknown (name : String)
  deriving DecidableEq, Repr

/-- What is written for null. -/
inductive NullBehavior where
  /-- Nothing; the place stays as it is. -/
  | ignore
  /-- The empty text. -/
  | empty
  /-- The attribute, or the whole element, is taken away. -/
  | remove
  deriving DecidableEq, Repr

/-- A selector and the plan for what to bind to the elements that it selects. -/
structure Rule where
  selector : Selector
  settings : Settings := .empty
  source : Option (List Scalar) := none
  sourceType : SourceType := .object
  /-- The value for elements left over when the source is exhausted. -/
  default : Option Scalar := none
  path : Option String := none
  format : Option String := none
  nullBehavior : NullBehavior := .ignore
  deriving Repr

/-- The names of the settings that have a meaning; others are kept and do
nothing. -/
def knownSettings : List String := [
  "binding-format", "binding-null-behavior", "binding-path", "binding-source",
  "binding-source-default", "binding-source-type"]

/-- Whether a name has a meaning, in whatever case it is written. -/
def isKnownSetting (name : String) : Bool :=
  knownSettings.contains (Text.lowercase name)

/-- The name of a source type, as a setting gives it. -/
def SourceType.name : SourceType → String
  | object => "object"
  | enumerable => "enumerable"
  | unknown name => name

/-- The name of a null behavior, as a setting gives it. -/
def NullBehavior.name : NullBehavior → String
  | ignore => "ignore"
  | empty => "empty"
  | remove => "remove"

namespace Rule

/-- The line of a setting in the text of a rule. -/
def settingLine (pair : String × String) : String :=
  "  " ++ pair.1 ++ ": " ++ pair.2 ++ ";\n"

/-- The text of a rule: selector and braces on lines of their own, and a line
for each setting. -/
def toText (r : Rule) : String :=
  r.selector.text ++ "\n\x7b\n" ++
    String.join (r.settings.pairs.map settingLine) ++ "\x7d\n"

/-- Whether two sources are the same: both missing, or lists of the same
values. -/
def sameSource (a b : Option (List Scalar)) : Bool :=
  match a, b with
  | none, none => true
  | some xs, some ys => Scalar.sameValues xs ys
  | _, _ => false

/-- Equality of defaults; a default of null is not the same as none. -/
def sameDefault (a b : Option Scalar) : Bool :=
  match a, b with
  | none, none => true
  | some x, some y => x.sameValue y
  | _, _ => false

/-- Equality of rules: the same selector text, the same settings whatever their
order and spelling, and the same plan, numbers being compared by value. -/
def same (a b : Rule) : Bool :=
  a.selector.text == b.selector.text && a.settings.sameMap b.settings &&
    sameSource a.source b.source && a.sourceType == b.sourceType &&
    sameDefault a.default b.default && a.path == b.path && a.format ==
      b.format &&
    a.nullBehavior == b.nullBehavior

end Rule

end SheetBinding
