import SheetBinding.Binding.Context
import SheetBinding.Binding.Pairing
import SheetBinding.Binding.Write
import SheetBinding.Log
import SheetBinding.Sheet

/-!
Applying rules to documents. The elements that a rule selects are collected
first and bound then, so an element that binding takes out of the document may
still be bound, unseen.
-/

namespace SheetBinding

/-- Why a rule or a sheet cannot be applied. -/
inductive ApplyError where
  /-- There is no scope to search. -/
  | noScope
  /-- The selector has a prefix that stands for no namespace. -/
  | undeclaredPrefix
  /-- The rule binds objects, and has the given selector. -/
  | objectBinding (selector : String)
  | unknownSource (name : String)
  | bind (cause : BindError)
  deriving DecidableEq, Repr

namespace ApplyError

/-- The text of an error. -/
def message : ApplyError → String
  | noScope => "No binding context is active and no scope was given"
  | undeclaredPrefix => "Undefined namespace prefix"
  | objectBinding selector =>
    "Object binding is not implemented (rule " ++ Text.display selector ++
      "); use a list binding-source"
  | unknownSource name => "Unknown source type: " ++ Text.display name
  | bind e => e.message

/-- Whether a failure is one that rules are expected to have. -/
def isExpected : ApplyError → Bool
  | undeclaredPrefix => false
  | bind e => e.isExpected
  | _ => true

end ApplyError

/-- The current context, which there has to be. -/
def Contexts.demand {κ : Type} (c : Contexts κ) : Except ApplyError κ :=
  match c.current with
  | some k => .ok k
  | Option.none => .error .noScope

/-- A document after an attempt to apply something, what was logged, and why the
attempt failed, if it did. -/
structure Outcome where
  document : Document
  log : List Event
  failure : Option ApplyError

/-- What was bound, and what that leaves over on either side. -/
def bindingLog (selector : String) (items elements bound : Nat) : List Event :=
  .bound selector bound ::
    if bound < elements then [.unbound selector (elements - bound)]
    else if bound < items then [.dropped selector (items - bound)]
    else []

namespace Rule

/-- Binds one item to one element, as a rule says. -/
def bindItem (r : Rule) (doc : Document) (pair : Scalar × Nat) :
    Document × Option BindError :=
  let w := doc.bind pair.2 r.path pair.1 r.format r.nullBehavior
  (w.document, w.failure)

/-- The items of a rule; a rule without a source has none. -/
def items (r : Rule) : List Scalar :=
  r.source.getD []

/-- Binds the items of a rule to elements, and notes how many were bound and how
many left over. -/
def bindItems (r : Rule) (doc : Document) (elements : List Nat) : Outcome :=
  match bindTo r.bindItem doc r.items elements r.default with
  | (doc, .error e) => ⟨doc, [], some (.bind e)⟩
  | (doc, .ok bound) =>
    ⟨doc, bindingLog r.selector.text r.items.length elements.length bound, none⟩

/-- Binds the source of a rule to elements, as its type asks. -/
def bindElements (r : Rule) (doc : Document) (elements : List Nat) : Outcome :=
  match r.sourceType with
  | .object => ⟨doc, [], some (.objectBinding r.selector.text)⟩
  | .enumerable => r.bindItems doc elements
  | .unknown name => ⟨doc, [], some (.unknownSource name)⟩

/-- The elements that a rule selects in a search from the node numbered
`scope`. -/
def elements? (r : Rule) (doc : Document) (scope : Nat) (descendants : Bool) :
    Option (List Nat) :=
  let tree := (doc.topOf? scope).getD doc.root
  (r.selector.search? tree scope descendants).map fun places =>
    places.map (·.id)

/-- Applies a rule to the node numbered `scope`. -/
def applyAt (r : Rule) (doc : Document) (scope : Nat) (descendants : Bool) :
    Outcome :=
  match r.elements? doc scope descendants with
  | none => ⟨doc, [], some .undeclaredPrefix⟩
  | some elements =>
    let outcome := r.bindElements doc elements
    { outcome with log := .matched r.selector.text elements.length ::
      outcome.log }

/-- Applies a rule to a scope, if there is one. -/
def apply (r : Rule) (doc : Document) (scope : Option Nat)
    (descendants : Bool) : Outcome :=
  match scope with
  | none => ⟨doc, [], some .noScope⟩
  | some scope => r.applyAt doc scope descendants

end Rule

namespace Sheet

/-- Applies rules in order until one fails. -/
def applyRules (doc : Document) (scope : Nat) (descendants : Bool) :
    List Rule → Outcome
  | [] => ⟨doc, [], none⟩
  | r :: rest =>
    let first := r.applyAt doc scope descendants
    match first.failure with
    | some _ => first
    | none =>
      let others := applyRules first.document scope descendants rest
      { others with log := first.log ++ others.log }

/-- Applies a sheet to a scope, if there is one. -/
def apply (s : Sheet) (doc : Document) (scope : Option Nat)
    (descendants : Bool) : Outcome :=
  match scope with
  | none => ⟨doc, [], some .noScope⟩
  | some scope => applyRules doc scope descendants s.rules

end Sheet

end SheetBinding
