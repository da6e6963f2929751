import SheetBinding.Binding.Apply
import SheetBinding.Command.Request
import SheetBinding.Lint
import SheetBinding.Load
import SheetBinding.Markup.Printer

/-!
The command. It validates a sheet, shows the plan of every rule in it, or
applies it to a document. What it does is a function of the command line and of
the files that are there: the report says what is printed, which file is
written, and with which code the command ends.
-/

namespace SheetBinding.Command

/-- The files that the command can see. -/
structure Files where
  read? : String → Option (List Text.Byte)
  isDirectory : String → Bool

/-- Why a command ends with a failure that it does not report in words of its
own. -/
inductive Failure where
  | load (cause : LoadError)
  | decode (cause : DecodeError)
  | emptyDocument
  | apply (cause : ApplyError)
  | encode
  | noDirectory
  deriving DecidableEq, Repr

/-- What a command has done. -/
structure Report where
  exitCode : Nat
  output : String := ""
  /-- What goes to the error output; nothing if that is how the command is
  used. -/
  errors : Option String := some ""
  failure : Option Failure := none
  /-- The file that is written. -/
  written : Option (String × List Text.Byte) := none

/-- What a command that was called wrongly reports. -/
def Report.usage : Report :=
  { exitCode := 2, errors := none }

/-- The entries of a log that reach a level, a line for each. -/
def logText (threshold : LogLevel) (events : List Event) : String :=
  let shown := events.filter fun e => threshold.rank ≤ e.level.rank
  String.join (shown.map fun e => e.level.name ++ " bindsheet: " ++
    e.message ++ "\n")

/-- What is reported of a sheet that cannot be loaded, after the log so far. -/
def loadFailed (log : String) (e : LoadError) : Report :=
  if e.isExpected then
    { exitCode := 1
      errors := some (log ++ "Parse error: " ++ e.summary ++ "\n") }
  else { exitCode := 1, errors := some log, failure := some (.load e) }

/-- The last part of a path. -/
def fileName (path : String) : String :=
  ((plainPath path).splitOn "/").getLast?.getD ""

/-- Lines, each with its end. -/
def linesText (lines : List String) : String :=
  String.join (lines.map (· ++ "\n"))

/-- The findings on a sheet, and how many there are of each severity. -/
def validation (name : String) (s : Sheet) : String :=
  match s.validate [] with
  | [] =>
    "OK: " ++ name ++ " is valid (" ++ toString s.rules.length ++
      " rule(s), 0 diagnostics)\n"
  | diagnostics =>
    let count (severity : Severity) : String :=
      toString (countOf severity diagnostics)
    linesText (diagnostics.map Diagnostic.toText) ++ "\nSummary: " ++
      count .error ++ " error(s), " ++ count .warning ++ " warning(s), " ++
      count .info ++ " info\n"

/-- The plan of a rule, line by line. -/
def planLines (r : Rule) : List String :=
  let listText (values : List Scalar) : String :=
    "[" ++ ", ".intercalate (values.map Scalar.display) ++ "]"
  let path := r.path.getD ""
  let ignored := Sheet.unknownNames r
  ["  source-type: " ++ r.sourceType.name] ++
    (r.source.map fun vs => "  source:      " ++ listText vs).toList ++
    (r.default.map fun v => "  default:     " ++ v.display).toList ++
    ["  path:        " ++ (if path == "" then "(text)" else path)] ++
    (r.format.map fun f => "  format:      " ++ Text.display f).toList ++
    ["  null:        " ++ r.nullBehavior.name] ++
    (if ignored.isEmpty then []
      else ["  ignored:     " ++ ", ".intercalate ignored])

/-- The plans of rules, numbered from `index` on. -/
def plansText (index : Nat) : List Rule → String
  | [] => ""
  | r :: rest =>
    "\n[" ++ toString index ++ "] " ++ r.selector.text ++ "\n" ++
      linesText (planLines r) ++ plansText (index + 1) rest

/-- What is shown of a sheet that is inspected: how many rules it has, and their
plans. -/
def inspection (s : Sheet) : String :=
  "Rules: " ++ toString s.rules.length ++ "\n" ++ plansText 1 s.rules

/-- Loads the sheet of a file and goes on with it, if there is such a file. -/
def withSheet (files : Files) (settings : Settings) (path : String)
    (next : String → Sheet → Report) : Report :=
  match files.read? path with
  | none => .usage
  | some content =>
    let loaded := Sheet.load (.file path content) settings.encoding
    let log := logText settings.threshold loaded.log
    match loaded.result with
    | .error e => loadFailed log e
    | .ok sheet => next log sheet

/-- Checks a sheet. The command succeeds if there is nothing among its findings
that is an error. -/
def runValidate (files : Files) (settings : Settings) (path : String) :
    Report :=
  withSheet files settings path fun log sheet => {
    exitCode := if countOf .error (sheet.validate []) == 0 then 0 else 1
    output := validation (fileName path) sheet
    errors := some log }

/-- Shows a sheet. -/
def runInspect (files : Files) (settings : Settings) (path : String) : Report :=
  withSheet files settings path fun log sheet => {
    exitCode := 0
    output := inspection sheet
    errors := some log }

/-- The path of the directory that a path lies in. -/
def directoryOf (path : String) : String :=
  plainPath ("/".intercalate ((plainPath path).splitOn "/").dropLast)

/-- Writes a result to a path. What cannot be encoded leaves an empty file. -/
def writeResult (files : Files) (encoding log path result : String) : Report :=
  let failed (f : Failure) : Report :=
    { exitCode := 1, errors := some log, failure := some f }
  if !files.isDirectory (directoryOf path) then failed .noDirectory
  else
    match Text.Codec.ofName? encoding with
    | none => failed (.decode .unknownEncoding)
    | some codec =>
      match codec.encode? result with
      | none => { failed .encode with written := some (path, []) }
      | some bytes => {
          exitCode := 0
          output := "Wrote " ++ path ++ "\n"
          errors := some log
          written := some (path, bytes) }

/-- Applies a sheet to a document, and prints or writes the result. -/
def applySheet (files : Files) (settings : Settings) (log : String)
    (sheet : Sheet) (content : List Text.Byte) (output : Option String) :
    Report :=
  let failed (log : String) (f : Failure) : Report :=
    { exitCode := 1, errors := some log, failure := some f }
  match decodeFile Text.Codec.ofName? settings.encoding content with
  | .error e => failed log (.decode e)
  | .ok markup =>
    match Markup.readDocument? markup 0 with
    | none => failed log .emptyDocument
    | some (top, next) =>
      let outcome := sheet.apply ⟨top, [], next⟩ (some top.id) true
      let log := log ++ logText settings.threshold outcome.log
      match outcome.failure with
      | some e =>
        if e.isExpected then
          { exitCode := 1
            errors := some (log ++ "Binding failed: " ++ e.message ++ "\n") }
        else failed log (.apply e)
      | none =>
        let result := Markup.printDocument outcome.document.root
        match output with
        | none => { exitCode := 0, output := result, errors := some log }
        | some path =>
          if path == "" then
            { exitCode := 0, output := result, errors := some log }
          else writeResult files settings.encoding log path result

/-- Applies a sheet to a document. A document that cannot be read and a result
that would take the place of a directory are wrong calls. -/
def runApply (files : Files) (settings : Settings) (path document : String)
    (output : Option String) : Report :=
  match files.read? document with
  | none => .usage
  | some content =>
    if output.any files.isDirectory then .usage
    else
      withSheet files settings path fun log sheet =>
        applySheet files settings log sheet content output

/-- What a request does with some files. -/
def run (files : Files) (request : Request) : Report :=
  match request with
  | .usage => .usage
  | .help => { exitCode := 0 }
  | .version => { exitCode := 0, output := "bindsheet, version 0.1.0\n" }
  | .task settings (.validate sheet) => runValidate files settings sheet
  | .task settings (.inspect sheet) => runInspect files settings sheet
  | .task settings (.apply sheet document output) =>
    runApply files settings sheet document output

end SheetBinding.Command
