import SheetBinding.Text.Display

/-!
Nested contexts. The context entered last is the current one; every context
keeps what was current before each of its own entries, and leaving it brings
back the latest of these.
-/

namespace SheetBinding

/-- The current context, and what each context keeps, latest first. -/
structure Contexts (κ : Type) where
  current : Option κ
  kept : κ → List (Option κ)

namespace Contexts

variable {κ : Type} [DecidableEq κ]

/-- No context is current, and none has been entered. -/
def none : Contexts κ :=
  ⟨Option.none, fun _ => []⟩

/-- What is kept for each object, with the stack of one of them replaced. -/
def keep (c : Contexts κ) (k : κ) (previous : List (Option κ)) :
    κ → List (Option κ) :=
  fun other => if other = k then previous else c.kept other

/-- Makes an object the current one. It keeps what was current before. -/
def enter (c : Contexts κ) (k : κ) : Contexts κ :=
  ⟨some k, c.keep k (c.current :: c.kept k)⟩

/-- Leaves a context. Nothing if it keeps nothing to go back to. -/
def leave? (c : Contexts κ) (k : κ) : Option (Contexts κ) :=
  match c.kept k with
  | [] => Option.none
  | previous :: rest => some ⟨previous, c.keep k rest⟩

/-- The scope to work in: the one that is given, else that of the current
context. -/
def scope? {κ σ : Type} (c : Contexts κ) (scopeOf : κ → σ) (given : Option σ) :
    Option σ :=
  given.or (c.current.map scopeOf)

end Contexts

/-- A context as messages show it, by the name of its scope. -/
def displayContext (scope : Option String) : String :=
  "BindingContext(scope=" ++ (scope.map Text.display).getD "None" ++ ")"

/-- What is reported when a context that was not entered is left. -/
def notEnteredMessage : String :=
  "pop from empty list"

end SheetBinding
