/-!
The attributes of an element, in the order they were first set. Setting one that
is there already keeps its place.
-/

namespace SheetBinding

/-- Names and values, each name at most once. -/
abbrev Attributes := List (String × String)

namespace Attributes

/-- The value of an attribute. -/
def value? (as : Attributes) (name : String) : Option String :=
  as.lookup name

/-- Whether there is an attribute of a name. -/
def has (as : Attributes) (name : String) : Bool :=
  (as.value? name).isSome

/-- Sets an attribute: in its place if it is there, else at the end. -/
def put (as : Attributes) (name value : String) : Attributes :=
  match as with
  | [] => [(name, value)]
  | (n, v) :: rest =>
    if n == name then (n, value) :: rest else (n, v) :: put rest name value

/-- Attributes without the one of a name. -/
def erase (as : Attributes) (name : String) : Attributes :=
  as.filter fun a => a.1 != name

end Attributes

end SheetBinding
