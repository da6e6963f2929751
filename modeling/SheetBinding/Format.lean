import SheetBinding.Format.Expansion

/-!
Rendering a value as text. Without a format it is written as it is; a format
with an opening brace in it is a template, and any other is a specification.
-/

namespace SheetBinding

/-- The text of a value. A format that holds an opening brace is a template; any
other is a specification. -/
def Scalar.render (value : Scalar) (format : Option String) :
    Except Format.Fault String :=
  match format with
  | none => .ok value.plainText
  | some f =>
    let cs := f.toList
    let rendered :=
      if cs.contains '{' then Format.expand value cs
      else (Format.Subject.value value).render cs
    rendered.map String.ofList

end SheetBinding
