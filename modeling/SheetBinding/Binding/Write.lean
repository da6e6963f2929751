import SheetBinding.Binding.Target
import SheetBinding.Format
import SheetBinding.Markup.Document
import SheetBinding.Markup.Reader
import SheetBinding.Rule
import SheetBinding.Text.Storable

/-!
Writing a value into an element. The path is resolved first, then the value is
rendered, and then it is written; writing text or markup empties the element
before anything can go wrong with the new content.
-/

namespace SheetBinding

/-- Why a value cannot be written. -/
inductive BindError where
  | path (cause : InvalidPath)
  | format (format : String) (value : Scalar) (fault : Format.Fault)
  /-- A document cannot hold the text. -/
  | unstorable
  /-- The path names no possible attribute. -/
  | attributeName
  | markup (cause : Markup.ContentError)
  deriving DecidableEq, Repr

namespace BindError

/-- The text of an error. -/
def message : BindError → String
  | path e => e.message
  | format f value fault => fault.message value.display (Text.display f)
  | unstorable => Text.unstorableMessage
  | attributeName => "Invalid attribute name"
  | markup e => e.message

/-- Whether the failure is one that rules are expected to have: a path or a
format that is invalid. -/
def isExpected : BindError → Bool
  | path _ => true
  | format _ _ fault => fault.isInvalid
  | _ => false

end BindError

/-- A document after an attempt to write, and why it failed, if it did. -/
structure Written where
  document : Document
  failure : Option BindError

namespace Document

/-- A document after a write without a failure. -/
def written (doc : Document) : Written :=
  ⟨doc, none⟩

/-- A document as a failed write leaves it. -/
def failed (doc : Document) (e : BindError) : Written :=
  ⟨doc, some e⟩

/-- The name of an attribute as elements hold it. A name may have a namespace
between braces before it; the empty namespace is dropped. -/
def attributeName (name : String) : Except BindError String :=
  if !Text.storable name then .error .unstorable
  else
    match name.toList with
    | [] => .error .attributeName
    | '\x7b' :: rest =>
      match rest.takeWhile (· != '\x7d'), rest.dropWhile (· != '\x7d') with
      | _, [] => .error .attributeName
      | _, [_] => .error .attributeName
      | [], _ :: plain => .ok (String.ofList plain)
      | _, _ => .ok name
    | _ => .ok name

/-- Sets an attribute of an element. Nothing is changed by a failure. -/
def setAttribute (doc : Document) (target : Nat) (name value : String) :
    Written :=
  match attributeName name with
  | .error e => doc.failed e
  | .ok name =>
    if Text.storable value then
      (doc.update target fun n =>
        n.withAttributes (n.attributes.put name value)).written
    else doc.failed .unstorable

/-- Takes an attribute of an element away, if it is there. -/
def deleteAttribute (doc : Document) (target : Nat) (name : String) : Written :=
  match attributeName name with
  | .error e => doc.failed e
  | .ok name =>
    (doc.update target fun n =>
      n.withAttributes (n.attributes.erase name)).written

/-- Replaces the content of the element of the given number by text. -/
def setText (doc : Document) (target : Nat) (text : String) : Written :=
  let emptied := doc.clear target
  if Text.storable text then
    (emptied.update target (·.withContent text [])).written
  else emptied.failed .unstorable

/-- Replaces the content of the element of the given number by markup. -/
def setMarkup (doc : Document) (target : Nat) (markup : String) : Written :=
  let emptied := doc.clear target
  if markup == "" then emptied.written
  else
    match Markup.readContent markup emptied.nextId with
    | .error e => emptied.failed (.markup e)
    | .ok (content, next) =>
      if Text.storable content.text then
        Document.written
          { emptied.update target (·.withContent content.text
            content.children) with
            nextId := next }
      else emptied.failed .unstorable

/-- Writes a text into a place of the element of the given number. -/
def write (doc : Document) (target : Nat) (place : Target) (text : String) :
    Written :=
  match place with
  | .text => doc.setText target text
  | .markup => doc.setMarkup target text
  | .attribute name => doc.setAttribute target name text

/-- Takes away an attribute, or the whole element for the other places. -/
def takeAway (doc : Document) (target : Nat) (place : Target) : Written :=
  match place with
  | .attribute name => doc.deleteAttribute target name
  | _ => (doc.remove target).written

/-- Writes a value to a place of an element. Null is written as the null
behavior asks, and is not formatted. -/
def bind (doc : Document) (target : Nat) (path : Option String) (value : Scalar)
    (format : Option String) (nullBehavior : NullBehavior) : Written :=
  match Target.ofPath path with
  | .error e => doc.failed (.path e)
  | .ok place =>
    if value == .null then
      match nullBehavior with
      | .ignore => doc.written
      | .empty => doc.write target place ""
      | .remove => doc.takeAway target place
    else
      match value.render format with
      | .error fault => doc.failed (.format (format.getD "") value fault)
      | .ok text => doc.write target place text

end Document

end SheetBinding
