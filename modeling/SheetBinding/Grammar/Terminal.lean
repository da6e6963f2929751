import SheetBinding.Text.Blank
import SheetBinding.Text.Quotation
import SheetBinding.Text.Word

/-!
The terminals of a sheet. What may come next decides which terminal is tried,
and a terminal takes as much of the text as it can: selectors and values run
over quoted stretches whole, so a brace or a semicolon inside quotes ends
neither.
-/

namespace SheetBinding.Grammar

open Text

/-- The kinds of tokens a sheet is made of. -/
inductive Terminal where
  | selector
  | openBrace
  | closeBrace
  | name
  | colon
  | value
  | semicolon
  deriving DecidableEq, Repr

/-- An unquoted character of a selector. -/
def isSelectorChar (c : Char) : Bool :=
  !(c == '{' || c == '}' || c == '\'' || c == '"' || c == ';')

/-- An unquoted character of a value. -/
def isValueChar (c : Char) : Bool :=
  !(c == '\'' || c == '"' || c == ';')

/-- The characters of the names of settings. -/
def isNameChar (c : Char) : Bool :=
  isWord c || c == '-'

/-- Takes quoted stretches whole and plain characters one by one, as many as
there are: what was taken, and what is left. A quote that opens no stretch is
not taken. -/
def takeUnits (plain : Char → Bool) (cs : List Char) : List Char × List Char :=
  match cs with
  | [] => ([], [])
  | c :: rest =>
    if isQuote c then
      match _h : closeQuote? c rest with
      | some (inner, after) =>
        let units := takeUnits plain after
        (c :: inner ++ c :: units.1, units.2)
      | none => ([], c :: rest)
    else if plain c then
      let units := takeUnits plain rest
      (c :: units.1, units.2)
    else ([], c :: rest)
termination_by cs.length
decreasing_by
  · have := eq_of_closeQuote? _h
    simp [this]
    omega
  · simp

/-- A text token: units from the first character on, which must be no blank. -/
def takeText? (plain : Char → Bool) (cs : List Char) :
    Option (List Char × List Char) :=
  let units := takeUnits plain cs
  if cs.head?.all isBlank || units.1.isEmpty then none else some units

/-- Takes one character off the front, if it is the given one. -/
def takeChar? (c : Char) : List Char → Option (List Char × List Char)
  | [] => none
  | d :: rest => if d == c then some ([d], rest) else none

/-- A run of name characters. -/
def takeName? (cs : List Char) : Option (List Char × List Char) :=
  let name := cs.takeWhile isNameChar
  if name.isEmpty then none else some (name, cs.dropWhile isNameChar)

/-- Takes a token of the given kind from the start of a text: the token, and
what is left. -/
def Terminal.take? : Terminal → List Char → Option (List Char × List Char)
  | selector => takeText? isSelectorChar
  | openBrace => takeChar? '{'
  | closeBrace => takeChar? '}'
  | name => takeName?
  | colon => takeChar? ':'
  | value => takeText? isValueChar
  | semicolon => takeChar? ';'

/-- Units are cut off the front of the text. -/
theorem takeUnits_append (plain : Char → Bool) (cs : List Char) :
    (takeUnits plain cs).1 ++ (takeUnits plain cs).2 = cs := by
  fun_induction takeUnits plain cs with
  | case1 => rfl
  | case2 c rest hq inner after h units ih =>
    have := eq_of_closeQuote? h
    simp only [List.cons_append, List.append_assoc]
    rw [this, ← ih]
  | case3 => rfl
  | case4 c rest hq hp units ih =>
    simp only [List.cons_append]
    rw [← ih]
  | case5 => rfl

theorem append_of_takeText? {plain : Char → Bool} {cs token left : List Char}
    (h : takeText? plain cs = some (token, left)) : token ≠ [] ∧
      token ++ left = cs := by
  have happend := takeUnits_append plain cs
  simp only [takeText?, Option.ite_none_left_eq_some, Option.some.injEq] at h
  obtain ⟨hne, hunits⟩ := h
  rw [hunits] at hne happend
  exact ⟨by rintro rfl; simp at hne, happend⟩

theorem append_of_takeChar? {c : Char} {cs token left : List Char}
    (h : takeChar? c cs = some (token, left)) : token ≠ [] ∧
      token ++ left = cs := by
  cases cs with
  | nil => cases h
  | cons d rest =>
    simp only [takeChar?, Option.ite_none_right_eq_some, Option.some.injEq,
      Prod.mk.injEq] at h
    obtain ⟨_, rfl, rfl⟩ := h
    simp

theorem append_of_takeName? {cs token left : List Char}
    (h : takeName? cs = some (token, left)) : token ≠ [] ∧
      token ++ left = cs := by
  simp only [takeName?, Option.ite_none_left_eq_some, Option.some.injEq,
    Prod.mk.injEq] at h
  obtain ⟨hne, rfl, rfl⟩ := h
  exact ⟨by simpa using hne, List.takeWhile_append_dropWhile⟩

/-- A token is never empty, and is cut off the front of the text. -/
theorem Terminal.append_of_take? {t : Terminal} {cs token left : List Char}
    (h : t.take? cs = some (token, left)) : token ≠ [] ∧
      token ++ left = cs := by
  cases t with
  | selector | value => exact append_of_takeText? h
  | openBrace | closeBrace | colon | semicolon => exact append_of_takeChar? h
  | name => exact append_of_takeName? h

/-- A token leaves less than there was. -/
theorem Terminal.length_lt_of_take? {t : Terminal} {cs token left : List Char}
    (h : t.take? cs = some (token, left)) : left.length < cs.length := by
  obtain ⟨hne, rfl⟩ := t.append_of_take? h
  have := List.length_pos_iff.2 hne
  grind

end SheetBinding.Grammar
