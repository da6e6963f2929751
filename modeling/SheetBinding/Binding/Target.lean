import SheetBinding.Text.Blank
import SheetBinding.Text.Display
import SheetBinding.Text.Lowercase

/-!
Binding paths. A path names the place in an element that a value is written to:
its text, its content as markup, or one of its attributes.
-/

namespace SheetBinding

/-- The place in an element that a value is written to. -/
inductive Target where
  | text
  | markup
  | attribute (name : String)
  deriving DecidableEq, Repr

/-- A path that names no place. -/
structure InvalidPath where
  path : String
  deriving DecidableEq, Repr

/-- The text of an error. -/
def InvalidPath.message (e : InvalidPath) : String :=
  "Invalid binding path: " ++ Text.display e.path

namespace Target

/-- The paths of the text, in lower case. -/
def textPaths : List String := ["", "text", "innertext"]

/-- The paths of the content as markup, in lower case. -/
def markupPaths : List String := ["html", "innerhtml"]

/-- What may stand before a point and the name of an attribute, in lower
case. -/
def attributeOwners : List String := ["attr", "attributes"]

/-- The attribute that a path without special meaning names: the path itself, or
what follows the only point in it. -/
def attributeOf? (path : String) : Option String :=
  match path.splitOn "." with
  | [_] => some (Text.lowercase path)
  | [owner, name] =>
    if attributeOwners.contains (Text.lowercase owner) && name != "" then
      some (Text.lowercase name)
    else none
  | _ => none

/-- The attribute that a path names after an at sign. -/
def markedAttribute? (path : String) : Option String :=
  match path.toList with
  | '@' :: c :: rest => some (String.ofList (Text.lower (c :: rest)))
  | _ => none

/-- The place that a path names; no path is the same as the empty one. -/
def ofPath (path : Option String) : Except InvalidPath Target :=
  let path := Text.trimmed (path.getD "")
  let lowered := Text.lowercase path
  if textPaths.contains lowered then .ok .text
  else if markupPaths.contains lowered then .ok .markup
  else
    match (markedAttribute? path).or (attributeOf? path) with
    | some name => .ok (.attribute name)
    | none => .error ⟨path⟩

end Target

end SheetBinding
