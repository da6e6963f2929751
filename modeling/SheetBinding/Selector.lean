import SheetBinding.Selector.Match
import SheetBinding.Selector.Mention
import SheetBinding.Selector.Reader
import SheetBinding.Text.Display
import SheetBinding.Text.Storable

/-!
Compiled selectors, and the search for the elements that they select. A search
looks at the scope and everything below it, or at the children of the scope
only, for the first compound of each chain; what it finds is in document order,
and every element is found once however many chains select it.
-/

namespace SheetBinding

/-- A selector: its text without blanks at the ends, and what the text
spells. -/
structure Selector where
  text : String
  group : Selector.Group
  deriving Repr

/-- Why a text is no selector. -/
inductive SelectorError where
  /-- The text, shown without the blanks at its ends, spells no selector. -/
  | malformed (text : String)
  /-- The selector mentions a text that no document can hold. -/
  | unstorable
  deriving DecidableEq, Repr

/-- The text of an error. -/
def SelectorError.message : SelectorError → String
  | malformed text => "Invalid selector " ++ Text.display text
  | unstorable => Text.unstorableMessage

namespace Selector

/-- The group of selectors that a text without blanks at its ends spells. -/
def read? (cs : List Char) : Option Group :=
  (tokens? cs).bind groupOf?

/-- Compiles a selector. Texts that no document can hold are turned down before
prefixes that are parted from their colons. -/
def compile (s : String) : Except SelectorError Selector :=
  let text := Text.trimmed s
  match read? text.toList with
  | none => .error (.malformed text)
  | some group =>
    if group.mentions.any fun m => !Text.storable m.content then
      .error .unstorable
    else if group.mentions.any Mention.isParted then
      .error (.malformed text)
    else .ok ⟨text, group⟩

/-- What compiles: a text that spells a group, with nothing among its mentions
that no document can hold and no prefix parted from its colon. -/
theorem compile_eq_ok_iff {text : String} {s : Selector} :
    compile text = .ok s ↔
      s.text = Text.trimmed text ∧
        read? (Text.trimmed text).toList = some s.group ∧
        ∀ m ∈ s.group.mentions,
          Text.storable m.content = true ∧ m.isParted = false := by
  obtain ⟨t, g⟩ := s
  rw [compile]
  cases read? (Text.trimmed text).toList with
  | none => simp
  | some group =>
      dsimp only
      split
      · next hany =>
          simp only [List.any_eq_true, Bool.not_eq_true'] at hany
          obtain ⟨m, hm, hunstorable⟩ := hany
          simp only [reduceCtorEq, false_iff]
          rintro ⟨-, he, hall⟩
          cases he
          exact absurd (hall m hm).1 (by simp [hunstorable])
      · next hstorable =>
          simp only [List.any_eq_true, Bool.not_eq_true', not_exists, not_and,
            Bool.not_eq_false] at hstorable
          split
          · next hany =>
              obtain ⟨m, hm, hparted⟩ := List.any_eq_true.1 hany
              simp only [reduceCtorEq, false_iff]
              rintro ⟨-, he, hall⟩
              cases he
              exact absurd hparted (by simp [(hall m hm).2])
          · next hwhole =>
              rw [Bool.not_eq_true, List.any_eq_false] at hwhole
              constructor
              · intro h
                cases h
                exact ⟨rfl, rfl, fun m hm =>
                  ⟨hstorable m hm, Bool.eq_false_iff.2 (hwhole m hm)⟩⟩
              · rintro ⟨rfl, he, -⟩
                cases he
                rfl

/-- A selector as it is shown. -/
def display (s : Selector) : String :=
  "Selector(" ++ Text.display s.text ++ ")"

/-- Whether a selector has a prefix that stands for no namespace. -/
def hasUndeclaredPrefix (s : Selector) : Bool :=
  s.group.mentions.any Mention.isUndeclared

/-- Whether a place is where a chain may start in a search from the node
numbered `scope`. -/
def onAxis (scope : Nat) (descendants : Bool) (p : Place) : Bool :=
  if descendants then (p :: p.ancestors).any (·.id == scope)
  else p.parent?.any (·.id == scope)

/-- The elements of a tree at which a chain may start in a search from the node
numbered `scope`. -/
def axis (tree : Node) (scope : Nat) (descendants : Bool) : List Place :=
  tree.places.filter fun p => p.isElement && onAxis scope descendants p

/-- The places of a tree that a group selects in a search from the node numbered
`scope`, in document order. -/
def Group.select (group : Group) (tree : Node) (scope : Nat)
    (descendants : Bool) : List Place :=
  let start := axis tree scope descendants
  tree.places.filter fun p => group.any fun chain =>
    chain.holds start (onAxis scope descendants) p

/-- Searches a tree from the node numbered `scope`. Nothing is found, not even
an empty list, with a prefix that stands for no namespace. -/
def search? (s : Selector) (tree : Node) (scope : Nat) (descendants : Bool) :
    Option (List Place) :=
  if s.hasUndeclaredPrefix then none
  else some (s.group.select tree scope descendants)

end Selector

end SheetBinding
