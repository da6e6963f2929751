/-!
The shape of a template: text with replacement fields between braces, a doubled
brace standing for one. A field holds a name, a conversion after an exclamation
mark, and a specification after a colon, each of them optional; the
specification may hold fields of its own.
-/

namespace SheetBinding.Format

/-- A replacement field. -/
structure Field where
  name : List Char
  conversion : Option Char
  spec : List Char
  deriving DecidableEq, Repr

/-- Reads the name of a field and the character that ends it. Between square
brackets no character ends a name. -/
def takeName? (bracketed : Bool) :
    List Char → Option (List Char × Char × List Char)
  | [] => none
  | c :: rest =>
    if bracketed then
      (takeName? (c != ']') rest).map fun (name, stop, left) =>
        (c :: name, stop, left)
    else if c == '{' then none
    else if c == '}' || c == ':' || c == '!' then some ([], c, rest)
    else (takeName? (c == '[') rest).map fun (name, stop, left) =>
      (c :: name, stop, left)

/-- Reads a specification up to the brace that closes the field, `depth` braces
inside it being open. -/
def takeSpec? (depth : Nat) : List Char → Option (List Char × List Char)
  | [] => none
  | c :: rest =>
    if c == '}' && depth == 0 then some ([], rest)
    else
      let inner := if c == '{' then depth + 1 else if c == '}' then depth - 1
        else depth
      (takeSpec? inner rest).map fun (spec, left) => (c :: spec, left)

/-- Reads what follows the name of a field and the character `stop` that ended
it. -/
def takeTail? (name : List Char) (stop : Char) (cs : List Char) :
    Option (Field × List Char) :=
  if stop == '}' then some (⟨name, none, []⟩, cs)
  else if stop == ':' then
    (takeSpec? 0 cs).map fun (spec, left) => (⟨name, none, spec⟩, left)
  else
    match cs with
    | c :: '}' :: left => some (⟨name, some c, []⟩, left)
    | c :: ':' :: more =>
      (takeSpec? 0 more).map fun (spec, left) => (⟨name, some c, spec⟩, left)
    | _ => none

/-- Reads a field from after its opening brace. -/
def takeField? (cs : List Char) : Option (Field × List Char) :=
  match takeName? false cs with
  | none => none
  | some (name, stop, rest) => takeTail? name stop rest

/-- A name leaves less than there was. -/
theorem length_lt_of_takeName? {b : Bool} {cs name left : List Char}
    {stop : Char} (h : takeName? b cs = some (name, stop, left)) :
    left.length < cs.length := by
  fun_induction takeName? b cs generalizing name left stop with
  | case1 => cases h
  | case2 c rest ih =>
    obtain ⟨⟨n, s, l⟩, hrest, he⟩ := Option.map_eq_some_iff.1 h
    cases he
    have := ih hrest
    simp only [List.length_cons]
    omega
  | case3 => cases h
  | case4 =>
    cases h
    simp
  | case5 b c rest _ _ _ ih =>
    obtain ⟨⟨n, s, l⟩, hrest, he⟩ := Option.map_eq_some_iff.1 h
    cases he
    have := ih hrest
    simp only [List.length_cons]
    omega

/-- A specification leaves less than there was. -/
theorem length_lt_of_takeSpec? {depth : Nat} {cs spec left : List Char}
    (h : takeSpec? depth cs = some (spec, left)) : left.length < cs.length := by
  induction cs generalizing depth spec left with
  | nil => cases h
  | cons c rest ih =>
    unfold takeSpec? at h
    split at h
    · cases h
      simp
    · obtain ⟨⟨s, l⟩, hrest, he⟩ := Option.map_eq_some_iff.1 h
      cases he
      have := ih hrest
      simp only [List.length_cons]
      omega

/-- What follows a name leaves no more than there was. -/
theorem length_le_of_takeTail? {name cs left : List Char} {stop : Char}
    {f : Field} (h : takeTail? name stop cs = some (f, left)) :
    left.length ≤ cs.length := by
  unfold takeTail? at h
  split at h
  · cases h
    exact Nat.le_refl _
  · split at h
    · obtain ⟨⟨s, l⟩, hspec, he⟩ := Option.map_eq_some_iff.1 h
      cases he
      exact Nat.le_of_lt (length_lt_of_takeSpec? hspec)
    · split at h
      · cases h
        simp
        omega
      · obtain ⟨⟨s, l⟩, hspec, he⟩ := Option.map_eq_some_iff.1 h
        cases he
        have := length_lt_of_takeSpec? hspec
        simp only [List.length_cons]
        omega
      · cases h

/-- A field leaves less than there was. -/
theorem length_lt_of_takeField? {cs left : List Char} {f : Field}
    (h : takeField? cs = some (f, left)) : left.length < cs.length := by
  unfold takeField? at h
  split at h
  · cases h
  · next hname =>
    have := length_lt_of_takeName? hname
    have := length_le_of_takeTail? h
    omega

end SheetBinding.Format
