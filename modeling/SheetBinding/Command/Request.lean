import SheetBinding.Log
import SheetBinding.Text.Lowercase

/-!
What a command line asks for. Options come before the name of the command and
after it; those after it may stand between its arguments. A line that asks for
nothing sensible is answered by how the command is used, and with an exit code
of its own.
-/

namespace SheetBinding.Command

/-- An option, by its long names and the letters that stand for it. -/
structure OptionKind where
  name : String
  letter : Option Char
  takesValue : Bool
  deriving Repr

/-- Options with their values, in the order of the line; an option without value
has an empty one. -/
abbrev Assigned := List (String × String)

/-- Reads the letters after a single hyphen: the options they set, and one that
still waits for its value. -/
def readLetters (kinds : List OptionKind) :
    List Char → Option (Assigned × Option String)
  | [] => some ([], none)
  | c :: rest =>
    match kinds.find? fun k => k.letter == some c with
    | none => none
    | some k =>
      if !k.takesValue then
        (readLetters kinds rest).map fun (set, waiting) =>
          ((k.name, "") :: set, waiting)
      else if rest.isEmpty then some ([], some k.name)
      else some ([(k.name, String.ofList rest)], none)

/-- The name of an option, and the value after an equals sign. -/
def splitValue (arg : List Char) : List Char × Option String :=
  match arg.dropWhile (· != '=') with
  | [] => (arg, none)
  | _ :: value => (arg.takeWhile (· != '='), some (String.ofList value))

/-- Reads one argument that begins with a hyphen. -/
def readOption (kinds : List OptionKind) (arg : List Char) :
    Option (Assigned × Option String) :=
  let (name, value) := splitValue arg
  match kinds.find? fun k => k.name.toList == name with
  | some k =>
    match k.takesValue, value with
    | true, some v => some ([(k.name, v)], none)
    | true, none => some ([], some k.name)
    | false, none => some ([(k.name, "")], none)
    | false, some _ => none
  | none =>
    match arg with
    | '-' :: '-' :: _ => none
    | _ => readLetters kinds (arg.drop 1)

/-- Whether an argument is an option, or several in one. -/
def isOption (arg : List Char) : Bool :=
  arg.head? == some '-' && arg.length > 1

/-- Reads options and arguments. Options end at a double hyphen, and, if they
may not be `mixed` with arguments, at the first argument. -/
def readLine (kinds : List OptionKind) (mixed : Bool) :
    List String → Option (Assigned × List String)
  | [] => some ([], [])
  | arg :: rest =>
    if arg == "--" then some ([], rest)
    else if isOption arg.toList then
      match readOption kinds arg.toList with
      | none => none
      | some (set, none) =>
        (readLine kinds mixed rest).map fun (more, args) => (set ++ more, args)
      | some (set, some name) =>
        match rest with
        | [] => none
        | value :: rest =>
          (readLine kinds mixed rest).map fun (more, args) =>
            (set ++ (name, value) :: more, args)
    else if mixed then
      (readLine kinds mixed rest).map fun (more, args) => (more, arg :: args)
    else some ([], arg :: rest)

/-- The value that an option was given last. -/
def lastValue? (set : Assigned) (name : String) : Option String :=
  set.reverse.lookup name

/-- What is to be done with a sheet. -/
inductive Task where
  | validate (sheet : String)
  | inspect (sheet : String)
  | apply (sheet document : String) (output : Option String)
  deriving DecidableEq, Repr

/-- How it is to be done. -/
structure Settings where
  threshold : LogLevel
  encoding : String
  deriving Repr

/-- What a command line asks for. -/
inductive Request where
  /-- To be told how the command is used, since the line makes no sense. -/
  | usage
  | help
  | version
  | task (settings : Settings) (task : Task)
  deriving Repr

/-- The options in front of the name of a command. -/
def generalOptions : List OptionKind := [
  ⟨"--version", none, false⟩, ⟨"--help", none, false⟩,
    ⟨"--verbose", some 'v', false⟩,
  ⟨"--log-level", none, true⟩, ⟨"--encoding", none, true⟩]

/-- The options of the commands that take a sheet alone. -/
def readingOptions : List OptionKind := [⟨"--help", none, false⟩]

/-- The options of the command that applies a sheet. -/
def applyOptions : List OptionKind :=
  [⟨"--help", none, false⟩, ⟨"--output", some 'o', true⟩]

/-- The level of a name, whatever its case. -/
def levelOf? (name : String) : Option LogLevel :=
  [LogLevel.debug, .info, .warning, .error].find? fun l =>
    Text.asciiLowercase l.name == Text.asciiLowercase name

/-- The threshold of the log: everything if the line asks for it, else the level
that it names. -/
def threshold? (set : Assigned) : Option LogLevel :=
  match levelOf? ((lastValue? set "--log-level").getD "WARNING") with
  | none => none
  | some level =>
    some (if (lastValue? set "--verbose").isSome then .debug else level)

/-- The request of a command that takes a sheet alone. -/
def readingTask (settings : Settings) (task : String → Task)
    (args : List String) : Request :=
  match readLine readingOptions true args with
  | none => .usage
  | some (set, rest) =>
    if (lastValue? set "--help").isSome then .help
    else
      match rest with
      | [sheet] => .task settings (task sheet)
      | _ => .usage

/-- The request of the command that applies a sheet. -/
def applyTask (settings : Settings) (args : List String) : Request :=
  match readLine applyOptions true args with
  | none => .usage
  | some (set, rest) =>
    if (lastValue? set "--help").isSome then .help
    else
      match rest with
      | [sheet, document] =>
        .task settings (.apply sheet document (lastValue? set "--output"))
      | _ => .usage

/-- The request of a command, from its name and what follows it. -/
def taskOf (settings : Settings) : List String → Request
  | [] => .usage
  | name :: args =>
    match name with
    | "validate" => readingTask settings .validate args
    | "inspect" => readingTask settings .inspect args
    | "apply" => applyTask settings args
    | _ => .usage

/-- The request that arguments make. Asking for the version or for help comes
before all else. -/
def Request.ofArgs (args : List String) : Request :=
  match readLine generalOptions false args with
  | none => .usage
  | some (set, rest) =>
    match set.find? fun entry => entry.1 == "--version" || entry.1 ==
      "--help" with
    | some entry => if entry.1 == "--version" then .version else .help
    | none =>
      match threshold? set with
      | none => .usage
      | some threshold =>
        taskOf ⟨threshold, (lastValue? set "--encoding").getD "utf-8"⟩ rest

end SheetBinding.Command
