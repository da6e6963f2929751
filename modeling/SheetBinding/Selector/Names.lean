import SheetBinding.Selector.Basic
import SheetBinding.Text.Lowercase

/-!
Names in selectors. Element and attribute names are compared without regard to
case by lowering them when a selector is read. A name in a namespace keeps its
prefix apart only while both parts are simple names; any other spelling is
compared as a whole, prefix and colon included. A line feed at the end of a
simple name is let pass, and the name is looked up without it.
-/

namespace SheetBinding.Selector

/-- A text without the line feed at its end, if there is one. -/
def withoutFeed (s : String) : String :=
  if s.toList.getLast? == some '\n' then String.ofList s.toList.dropLast
  else s

/-- The characters that a simple name begins with. -/
def startsSimple (c : Char) : Bool :=
  c.isAlpha || c == '_'

/-- The characters that a simple name goes on with. -/
def continuesSimple (c : Char) : Bool :=
  c.isAlphanum || c == '_' || c == '.' || c == '-'

/-- Simple names are made of ASCII letters, digits, underscores, points and
hyphens, and begin with a letter or an underscore. A line feed at the end is let
pass. -/
def isSimpleName (s : String) : Bool :=
  match (withoutFeed s).toList with
  | [] => false
  | c :: rest => startsSimple c && rest.all continuesSimple

/-- A name with the prefix written before it. -/
def prefixed (space name : String) : String :=
  space ++ ":" ++ name

/-- The test for a name, or for any name, with an optional prefix. A name that
is compared `whole` is not looked up: it never keeps its prefix apart, and it
keeps its line feed. -/
def ElementTest.ofName (whole : Bool) (space name : Option String) :
    ElementTest :=
  let simple := !whole && space.all isSimpleName && name.all isSimpleName
  let lowered := name.map Text.lowercase
  match space with
  | none =>
    (if simple then lowered.map withoutFeed else lowered).elim .any .named
  | some s =>
    if simple then .qualified s (lowered.map withoutFeed)
    else .named (prefixed s (lowered.getD "*"))

/-- Whether a test names its elements in a way that lets their siblings of the
same type be counted. -/
def ElementTest.countsTypes : ElementTest → Bool
  | .any => false
  | .named name => isSimpleName name
  | .qualified .. => true

/-- The prefix and the name that an attribute test keeps. -/
def attributeName (space : Option String) (name : String) :
    Option String × String :=
  let lowered := Text.lowercase name
  let simple := space.all isSimpleName && isSimpleName lowered
  match space with
  | none => (none, if simple then withoutFeed lowered else lowered)
  | some s =>
    if simple then (some s, withoutFeed lowered)
    else (none, prefixed s lowered)

end SheetBinding.Selector
