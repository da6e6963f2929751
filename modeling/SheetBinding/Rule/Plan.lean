import SheetBinding.Literal
import SheetBinding.Rule

/-!
The plan of a rule, read off its settings. The selector is compiled first, then
the settings are collected, then their values are read in a fixed order; the
first failure is the one reported.
-/

namespace SheetBinding

/-- Why a selector and settings make no rule. -/
inductive RuleError where
  | selector (cause : SelectorError)
  | duplicate (cause : DuplicateSetting)
  | literal (cause : LiteralError)
  /-- The value of a setting is none of those that are allowed. -/
  | notAllowed (setting value : String) (allowed : List String)
  deriving DecidableEq, Repr

namespace RuleError

/-- The text of an error. -/
def message : RuleError → String
  | selector e => e.message
  | duplicate d => d.message
  | literal e => e.message
  | notAllowed setting value allowed =>
    "Invalid value " ++ Text.display value ++ " for " ++ setting ++
      "; expected one of: " ++ ", ".intercalate allowed

/-- Whether the failure is one that sheets are expected to have. Texts that no
document can hold and numbers with too many digits are not. -/
def isExpected : RuleError → Bool
  | selector .unstorable => false
  | literal (.notAList _) => true
  | literal _ => false
  | _ => true

/-- What a command tells of an error. -/
def summary : RuleError → String
  | selector (.malformed _) => "Invalid selector"
  | e => e.message

end RuleError

namespace Rule

/-- The allowed value of the given name, blanks at the ends and case left
aside. -/
def choice {α : Type} (setting : String) (allowed : List (String × α))
    (value : String) : Except RuleError α :=
  match allowed.lookup (Text.lowercase (Text.trimmed value)) with
  | some chosen => .ok chosen
  | none =>
    .error (.notAllowed setting (Text.trimmed value) (allowed.map (·.1)))

/-- The kinds of source that a setting can ask for, in the order of their
names. -/
def sourceTypes : List (String × SourceType) :=
  [("enumerable", .enumerable), ("object", .object)]

/-- What a setting can ask to be written for null, in the order of the names. -/
def nullBehaviors : List (String × NullBehavior) :=
  [("empty", .empty), ("ignore", .ignore), ("remove", .remove)]

/-- The source that settings give, if they give one. -/
def planSource (s : Settings) : Except RuleError (Option (List Scalar)) :=
  match s.get? "binding-source" with
  | none => .ok none
  | some text => ((Literal.list text).map some).mapError .literal

/-- The kind of source: the one asked for, else a list if there is one. -/
def planSourceType (s : Settings) (source : Option (List Scalar)) :
    Except RuleError SourceType :=
  match s.get? "binding-source-type" with
  | none => .ok (if source.isSome then .enumerable else .object)
  | some text => choice "binding-source-type" sourceTypes text

/-- The default that settings give, if they give one. -/
def planDefault (s : Settings) : Except RuleError (Option Scalar) :=
  match s.get? "binding-source-default" with
  | none => .ok none
  | some text => ((Literal.scalar text).map some).mapError .literal

/-- The path that settings give, without blanks at its ends. -/
def planPath (s : Settings) : Option String :=
  (s.get? "binding-path").map Text.trimmed

/-- A format is the content of a quoted text, or a bare text as it stands. -/
def formatOf (text : String) : String :=
  let cs := Text.trim text.toList
  String.ofList ((Text.unquote? cs).getD cs)

/-- The format that settings give. -/
def planFormat (s : Settings) : Option String :=
  (s.get? "binding-format").map formatOf

/-- The null behavior that settings give, or else to ignore nulls. -/
def planNullBehavior (s : Settings) : Except RuleError NullBehavior :=
  match s.get? "binding-null-behavior" with
  | none => .ok .ignore
  | some text => choice "binding-null-behavior" nullBehaviors text

/-- Makes a rule of a selector and settings. The first step that fails decides
the error. -/
def plan (selectorText : String) (pairs : List (String × String)) :
    Except RuleError Rule := do
  let selector ← (Selector.compile selectorText).mapError .selector
  let settings ← (Settings.ofPairs pairs).mapError .duplicate
  let source ← planSource settings
  let sourceType ← planSourceType settings source
  let default ← planDefault settings
  let nullBehavior ← planNullBehavior settings
  return {
    selector, settings, source, sourceType, default
    path := planPath settings
    format := planFormat settings
    nullBehavior }

end Rule

end SheetBinding
