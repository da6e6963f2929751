import SheetBinding.Markup.Document
import SheetBinding.Selector.Match
import SheetBinding.Selector
import SheetBinding.Text.Storable

/-!
Groups of radio buttons and checkboxes. The inputs of a form that share a name
are one group; of its radio buttons, selecting one deselects the others.
-/

namespace SheetBinding

/-- Why an element cannot be an input of a group. -/
inductive InputError where
  | notAnInput (tag : String)
  /-- The input is of a kind that groups do not take. -/
  | otherKind (kind : String)
  | noName
  deriving DecidableEq, Repr

/-- An input of a group, by the number of its element. -/
structure InputItem where
  element : Nat
  /-- Whether the input is a radio button; otherwise it is a checkbox. -/
  radio : Bool
  deriving DecidableEq, Repr

/-- The inputs of one name in a form, in document order. -/
structure ButtonGroup where
  /-- The number of the element that the group was captured from. -/
  form : Nat
  name : String
  items : List InputItem
  deriving DecidableEq, Repr

/-- The text of an error. -/
def InputError.message : InputError → String
  | notAnInput tag => "Not an input element: <" ++ tag ++ ">"
  | otherKind kind =>
    "Input type " ++ Text.display kind ++ " is not radio or checkbox"
  | noName => "Grouped inputs need a name attribute"

/-- What is reported when there is no group or no input of a number. -/
def noSuchItemMessage : String :=
  "list index out of range"

namespace InputItem

/-- The kind of an input: its type in lower case, without the blanks at its
ends. -/
def kindOf (n : Node) : String :=
  Text.lowercase (Text.trimmed ((n.attribute? "type").getD ""))

/-- The input that an element is, or the first of the demands on inputs that it
does not meet. -/
def ofNode (n : Node) : Except InputError InputItem :=
  let tag := n.tag?.getD ""
  let kind := kindOf n
  if Text.lowercase tag != "input" then .error (.notAnInput tag)
  else if kind != "radio" && kind != "checkbox" then .error (.otherKind kind)
  else if (n.attribute? "name").getD "" == "" then .error .noName
  else .ok ⟨n.id, kind == "radio"⟩

/-- The element of an input in a document, as it is now. -/
def node? (item : InputItem) (doc : Document) : Option Node :=
  doc.find? item.element

/-- The value of an input as it is now. -/
def value? (item : InputItem) (doc : Document) : Option String :=
  (item.node? doc).bind (·.attribute? "value")

/-- Whether an input is marked as selected now. -/
def isSelected (item : InputItem) (doc : Document) : Bool :=
  (item.node? doc).any fun n => n.attributes.has "checked"

/-- Takes the mark of a selected input away. -/
def deselect (doc : Document) (item : InputItem) : Document :=
  doc.update item.element fun n =>
    n.withAttributes (n.attributes.erase "checked")

/-- Marks an input as selected, and changes no other. -/
def mark (doc : Document) (item : InputItem) : Document :=
  doc.update item.element fun n =>
    n.withAttributes (n.attributes.put "checked" "checked")

/-- Sets the value of an input. Nothing if a document cannot hold it. -/
def setValue? (doc : Document) (item : InputItem) (value : String) :
    Option Document :=
  if Text.storable value then
    some (doc.update item.element fun n =>
      n.withAttributes (n.attributes.put "value" value))
  else none

end InputItem

namespace ButtonGroup

/-- The inputs that groups take: radio buttons and checkboxes with a name. -/
def inputs : Selector.Group :=
  let ofType (kind : String) : Selector.Complex :=
    .single (.mk (.named "input") [
      .attribute ⟨none, "type", .equals, kind, false⟩,
      .attribute ⟨none, "name", .present, "", false⟩])
  [ofType "radio", ofType "checkbox"]

/-- The selector that tells the inputs that groups take. -/
def inputsText : String :=
  "input[type=radio][name], input[type=checkbox][name]"

theorem read?_inputsText :
    Selector.read? inputsText.toList = some inputs := by
  have htokens : Selector.tokens? inputsText.toList = some [
      .ident "input", .delim '[', .ident "type", .delim '=', .ident "radio",
      .delim ']', .delim '[', .ident "name", .delim ']', .delim ',', .blank,
      .ident "input", .delim '[', .ident "type", .delim '=',
      .ident "checkbox", .delim ']', .delim '[', .ident "name",
      .delim ']'] := by decide +kernel
  rw [Selector.read?, htokens]
  rfl

/-- The inputs that groups take are those that the selector tells. -/
theorem compile_inputsText :
    Selector.compile inputsText = .ok ⟨inputsText, inputs⟩ := by
  have htrimmed : Text.trimmed inputsText = inputsText := by decide +kernel
  have hmentions : ∀ m ∈ inputs.mentions,
      Text.storable m.content = true ∧ m.isParted = false := by decide +kernel
  exact Selector.compile_eq_ok_iff.2
    ⟨htrimmed.symm, by rw [htrimmed, read?_inputsText], hmentions⟩

/-- The name of the group that a node belongs to. -/
def nameOf (n : Node) : String :=
  (n.attribute? "name").getD ""

/-- The nodes in groups of one name each, in the order in which the names first
appear. -/
def groupByName : List Node → List (String × List Node)
  | [] => []
  | n :: rest =>
    let others := groupByName rest
    let name := nameOf n
    (name, n :: (others.lookup name).getD []) :: others.filter (·.1 != name)

/-- A group of elements. The first that is no input decides the error. -/
def ofNodes (form : Nat) (name : String) (nodes : List Node) :
    Except InputError ButtonGroup :=
  (nodes.mapM InputItem.ofNode).map fun items => ⟨form, name, items⟩

/-- The groups of the inputs below an element, in the order in which their names
first appear. -/
def capture (doc : Document) (form : Nat) :
    Except InputError (List ButtonGroup) :=
  let tree := (doc.topOf? form).getD doc.root
  let found := (inputs.select tree form true).map (·.node)
  (groupByName found).mapM fun (name, nodes) => ofNodes form name nodes

/-- Whether several inputs of a group can be selected at a time. -/
def allowsSeveral (g : ButtonGroup) : Bool :=
  g.items.any (!·.radio)

/-- The values of the inputs that are selected now. -/
def selectedValues (g : ButtonGroup) (doc : Document) : List (Option String) :=
  (g.items.filter (·.isSelected doc)).map (·.value? doc)

/-- Selects an input of a group. If it is a radio button, the other radio
buttons are deselected. -/
def select (g : ButtonGroup) (doc : Document) (item : InputItem) : Document :=
  let others := g.items.filter fun other => other.radio && other.element !=
    item.element
  InputItem.mark (if item.radio then others.foldl InputItem.deselect doc
    else doc) item

/-- The first label in a form that is for an id. -/
def labelFor? (doc : Document) (form : Nat) (id : String) : Option Place :=
  (doc.find? form).bind fun top =>
    top.places.find? fun p => p.tag? ==
      some "label" && p.attribute? "for" == some id

/-- The nearest label around a node. -/
def labelAround? (doc : Document) (target : Nat) : Option Place :=
  (doc.topOf? target).bind fun top =>
    (top.places.find? (·.id == target)).bind fun p =>
      p.ancestors.find? fun a => a.tag? == some "label"

/-- The label of a node: one in the form that is for it, else the nearest one
around it. -/
def label? (g : ButtonGroup) (doc : Document) (target : Nat) : Option Node :=
  let id := ((doc.find? target).bind (·.attribute? "id")).getD ""
  let named := if id == "" then none else labelFor? doc g.form id
  (named.or (labelAround? doc target)).map (·.node)

/-- The text of the label of an input, without the blanks at its ends. -/
def textOf? (g : ButtonGroup) (doc : Document) (item : InputItem) :
    Option String :=
  (g.label? doc item.element).map fun n => Text.trimmed n.textContent

/-- An input of a group as it is shown. -/
def displayItem (g : ButtonGroup) (doc : Document) (item : InputItem) :
    String :=
  let value := ((item.value? doc).map Text.display).getD "None"
  "InputItem(name=" ++ Text.display g.name ++ ", value=" ++ value ++ ")"

/-- A group as it is shown. -/
def display (g : ButtonGroup) : String :=
  "ButtonGroup(name=" ++ Text.display g.name ++ ", items=" ++
    toString g.items.length ++ ")"

end ButtonGroup

end SheetBinding
