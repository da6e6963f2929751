import SheetBinding.Sheet

/-!
Checks of sheets that load but are likely mistakes. Each check looks at all
rules in order, and the checks follow one another: rules that bind objects,
settings without meaning, defaults without a source, and formats without a path.
-/

namespace SheetBinding

/-- How serious a finding is. -/
inductive Severity where
  | error
  | warning
  | info
  deriving DecidableEq, Repr

/-- The name of a severity, as findings give it. -/
def Severity.name : Severity → String
  | error => "ERROR"
  | warning => "WARNING"
  | info => "INFO"

/-- A finding about a sheet. -/
structure Diagnostic where
  /-- The check that found it. -/
  check : String
  severity : Severity
  message : String
  /-- The selector of the rule that it is about. -/
  selector : Option String := none
  /-- The setting that it is about. -/
  setting : Option String := none
  /-- What would mend it. -/
  fix : Option String := none
  deriving DecidableEq, Repr

namespace Diagnostic

/-- Whether a finding is an error. -/
def isError (d : Diagnostic) : Bool :=
  d.severity == .error

/-- Whether a finding is a warning. -/
def isWarning (d : Diagnostic) : Bool :=
  d.severity == .warning

/-- Where a finding is: the selector and the setting, as far as they are
there. -/
def location (d : Diagnostic) : String :=
  let selector := d.selector.getD ""
  let setting := d.setting.getD ""
  if selector == "" then ""
  else if setting == "" then " [" ++ selector ++ "]"
  else " [" ++ selector ++ " / " ++ setting ++ "]"

/-- A finding as it is shown. -/
def toText (d : Diagnostic) : String :=
  d.severity.name ++ d.location ++ ": " ++ d.message

end Diagnostic

/-- The errors among some findings, which keep a sheet from being used. -/
structure ValidationError where
  diagnostics : List Diagnostic
  deriving DecidableEq, Repr

/-- The text of the error for findings: how many are errors, and which. -/
def ValidationError.message (e : ValidationError) : String :=
  let errors := e.diagnostics.filter (·.isError)
  toString errors.length ++ " binding sheet error(s): " ++
    "; ".intercalate (errors.map Diagnostic.toText)

namespace Sheet

/-- Rules that bind objects fail when they are applied. -/
def checkObjectMode (s : Sheet) : List Diagnostic :=
  (s.rules.filter (·.sourceType == .object)).map fun r => {
    check := "check_object_mode"
    severity := .error
    message := "Rule binds in object mode, which is not supported."
    selector := some r.selector.text
    fix := some ("Give the rule a list binding-source or set " ++
      "binding-source-type: enumerable.") }

/-- The names of the settings of a rule that have no meaning. -/
def unknownNames (r : Rule) : List String :=
  r.settings.names.filter (!isKnownSetting ·)

/-- Settings without meaning are kept and do nothing. -/
def checkUnknownSettings (s : Sheet) : List Diagnostic :=
  s.rules.flatMap fun r =>
    (unknownNames r).map fun name => {
      check := "check_unknown_settings"
      severity := .warning
      message := "Unknown setting '" ++ name ++ "' is ignored."
      selector := some r.selector.text
      setting := some name
      fix := some ("Known settings: " ++ ", ".intercalate knownSettings) }

/-- A default only matters once a source is exhausted. -/
def checkDefaultWithoutSource (s : Sheet) : List Diagnostic :=
  let flagged (r : Rule) : Bool :=
    r.settings.has "binding-source-default" && !r.settings.has "binding-source"
  (s.rules.filter flagged).map fun r => {
    check := "check_default_without_source"
    severity := .warning
    message := "binding-source-default is set but binding-source is not."
    selector := some r.selector.text
    setting := some "binding-source-default" }

/-- Values with a format and without a path are written as text. -/
def checkFormatWithoutPath (s : Sheet) : List Diagnostic :=
  let flagged (r : Rule) : Bool :=
    r.settings.has "binding-format" && !r.settings.has "binding-path"
  (s.rules.filter flagged).map fun r => {
    check := "check_format_without_path"
    severity := .info
    message := "binding-format without binding-path binds to element text."
    selector := some r.selector.text
    setting := some "binding-format" }

/-- The findings of all checks, then those of further checks. -/
def validate (s : Sheet) (extra : List (Sheet → List Diagnostic)) :
    List Diagnostic :=
  let checks :=
    [checkObjectMode, checkUnknownSettings, checkDefaultWithoutSource,
      checkFormatWithoutPath]
  (checks ++ extra).flatMap fun check => check s

/-- The findings of all checks, if no error is among them. -/
def validateStrictly (s : Sheet) (extra : List (Sheet → List Diagnostic)) :
    Except ValidationError (List Diagnostic) :=
  let diagnostics := s.validate extra
  if diagnostics.any (·.isError) then .error ⟨diagnostics⟩ else .ok diagnostics

end Sheet

/-- How many findings are of a severity. -/
def countOf (severity : Severity) (diagnostics : List Diagnostic) : Nat :=
  diagnostics.countP (·.severity == severity)

end SheetBinding
