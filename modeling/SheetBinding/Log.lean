/-!
What is logged while sheets are loaded and applied.
-/

namespace SheetBinding

/-- How important a log entry is. -/
inductive LogLevel where
  | debug
  | info
  | warning
  | error
  deriving DecidableEq, Repr

/-- Levels by rising importance. -/
def LogLevel.rank : LogLevel → Nat
  | debug => 0
  | info => 1
  | warning => 2
  | error => 3

/-- The name of a level, as the log gives it. -/
def LogLevel.name : LogLevel → String
  | debug => "DEBUG"
  | info => "INFO"
  | warning => "WARNING"
  | error => "ERROR"

/-- What is logged. -/
inductive Event where
  /-- A sheet is about to be read from a file. -/
  | reading (file : String)
  /-- A sheet of so many rules has been loaded. -/
  | loaded (rules : Nat)
  /-- The selector of a rule selects so many elements. -/
  | matched (selector : String) (elements : Nat)
  /-- So many elements have been bound. -/
  | bound (selector : String) (items : Nat)
  /-- There is no item for so many elements. -/
  | unbound (selector : String) (elements : Nat)
  /-- There is no element for so many items. -/
  | dropped (selector : String) (items : Nat)
  deriving DecidableEq, Repr

namespace Event

/-- How important an entry is. -/
def level : Event → LogLevel
  | unbound .. => .info
  | _ => .debug

/-- The text of an entry. -/
def message : Event → String
  | reading file => "Reading binding sheet from " ++ file
  | loaded n => "Loaded binding sheet with " ++ toString n ++ " rule(s)"
  | matched s n =>
    "Selector " ++ s ++ " matched " ++ toString n ++ " element(s)"
  | bound s n => "Bound " ++ toString n ++ " item(s) for " ++ s
  | unbound s n =>
    toString n ++ " element(s) matched by " ++ s ++
      " left unbound: data source exhausted"
  | dropped s n =>
    toString n ++ " item(s) for " ++ s ++ " dropped: no more matching elements"

end Event

end SheetBinding
