import SheetBinding.Format.Subject
import SheetBinding.Format.Template

/-!
Expanding a template for one value. Fields name the value by its number, which
is zero, or leave the number out; a template does the one or the other
throughout. The first fault from the left is the one reported, and in a field
the name comes first, then the conversion, then the specification.
-/

namespace SheetBinding.Format

/-- How the fields of a template name the value, as far as it has been read. -/
inductive Numbering where
  | undecided
  /-- Fields leave the number out, and so many have been read. -/
  | automatic (count : Nat)
  /-- Fields give the number. -/
  | manual
  deriving DecidableEq, Repr

/-- A run of digits as a number; none if it is no such run. Digits are counted
from the front, so they fail for too great a number before anything else among
them is seen. -/
def numberOf (cs : List Char) : Except Fault (Option Nat) :=
  if Spec.maxNumber < Text.natOfDigits (cs.takeWhile Text.isDigit) then
    .error .invalid
  else if cs.isEmpty || !cs.all Text.isDigit then .ok none
  else .ok (some (Text.natOfDigits cs))

/-- The number of the value that a field names, and how the fields have named it
so far. -/
def fieldNumber (numbering : Numbering) (name : List Char) :
    Except Fault (Nat × Numbering) := do
  if name.isEmpty then
    match numbering with
    | .undecided => return (0, .automatic 1)
    | .automatic n => return (n, .automatic (n + 1))
    | .manual => throw .invalid
  else
    match ← numberOf name, numbering with
    | none, _ => throw .invalid
    | some _, .automatic _ => throw .invalid
    | some n, _ => return (n, .manual)

/-- Whether a character begins the way to a part or an item. -/
def startsStep (c : Char) : Bool :=
  c == '.' || c == '['

/-- Follows a way of parts after points and items between brackets, of at most
so many steps. -/
def follow : Nat → Subject → List Char → Except Fault Subject
  | 0, s, _ => .ok s
  | _, s, [] => .ok s
  | rounds + 1, s, c :: rest =>
    if c == '.' then
      let name := rest.takeWhile fun d => !startsStep d
      if name.isEmpty then .error .invalid
      else
        match s.part name with
        | .error fault => .error fault
        | .ok p => follow rounds p (rest.dropWhile fun d => !startsStep d)
    else if c == '[' then
      let name := rest.takeWhile (· != ']')
      match rest.dropWhile (· != ']') with
      | [] => .error .invalid
      | _ :: more =>
        if name.isEmpty then .error .invalid
        else
          match numberOf name with
          | .error fault => .error fault
          | .ok number =>
            match s.item number with
            | .error fault => .error fault
            | .ok p => follow rounds p more
    else .error .invalid

/-- What the name of a field stands for. -/
def subjectOf (value : Scalar) (numbering : Numbering) (name : List Char) :
    Except Fault (Subject × Numbering) := do
  let (number, numbering) ← fieldNumber numbering
    (name.takeWhile fun c => !startsStep c)
  if number != 0 then throw .invalid
  let way := name.dropWhile fun c => !startsStep c
  return (← follow way.length (.value value) way, numbering)

/-- An expansion: what is written, and how the fields have named the value so
far. -/
abbrev Expansion := Except Fault (List Char × Numbering)

/-- Expands a field, `expandSpec` expanding a specification that holds
fields. -/
def expandField (expandSpec : Numbering → List Char → Expansion)
    (value : Scalar) (numbering : Numbering) (f : Field) : Expansion := do
  let (subject, numbering) ← subjectOf value numbering f.name
  let subject ← subject.convert f.conversion
  let (spec, numbering) ←
    if f.spec.contains '{' then expandSpec numbering f.spec
      else .ok (f.spec, numbering)
  return (← subject.render spec, numbering)

/-- What is written before an expansion. -/
def Expansion.after (before : List Char) (e : Expansion) : Expansion :=
  e.map fun (cs, numbering) => (before ++ cs, numbering)

/-- Expands a template, `expandSpec` expanding specifications that hold
fields. -/
def expandWith (expandSpec : Numbering → List Char → Expansion) (value : Scalar)
    (numbering : Numbering) (cs : List Char) : Expansion :=
  match cs with
  | [] => .ok ([], numbering)
  | '{' :: '{' :: rest =>
    Expansion.after ['{'] (expandWith expandSpec value numbering rest)
  | '}' :: '}' :: rest =>
    Expansion.after ['}'] (expandWith expandSpec value numbering rest)
  | c :: rest =>
    if c == '{' then
      match _h : takeField? rest with
      | none => .error .invalid
      | some (f, left) =>
        match expandField expandSpec value numbering f with
        | .error fault => .error fault
        | .ok (text, numbering) =>
          Expansion.after text (expandWith expandSpec value numbering left)
    else if c == '}' then .error .invalid
    else Expansion.after [c] (expandWith expandSpec value numbering rest)
termination_by cs.length
decreasing_by
  · simp only [List.length_cons]
    omega
  · simp only [List.length_cons]
    omega
  · have := length_lt_of_takeField? _h
    simp only [List.length_cons]
    omega
  · simp only [List.length_cons]
    omega

theorem expandWith_nil {expandSpec : Numbering → List Char → Expansion}
    {value : Scalar} {numbering : Numbering} :
    expandWith expandSpec value numbering [] = .ok ([], numbering) := by
  rw [expandWith]

/-- Expands a specification inside a field, whose own fields hold none in
theirs. -/
def expandSpec (value : Scalar) : Numbering → List Char → Expansion :=
  expandWith (fun _ _ => .error .invalid) value

/-- Expands a template for a value. -/
def expand (value : Scalar) (cs : List Char) : Except Fault (List Char) :=
  (expandWith (expandSpec value) value .undecided cs).map (·.1)

end SheetBinding.Format
