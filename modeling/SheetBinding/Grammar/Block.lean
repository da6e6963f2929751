import SheetBinding.Grammar.Terminal

/-!
The shape of a sheet: a sequence of blocks, each a selector and settings between
braces, each setting a name, a colon, a value and a semicolon. Gaps may stand
between any two tokens.

A reading that cannot go on stops and says what it was waiting for and where: at
the first character that does not fit, or, when the text is over too early, at
the start of the last token that was read.
-/

namespace SheetBinding.Grammar

open Text

/-- A block as it is written: its selector, and the names and values of its
settings, all without the blanks at their ends. -/
structure Block where
  selector : String
  settings : List (String × String)
  deriving DecidableEq, Repr

/-- Why a reading stopped: the kind of token it waited for, or nothing when it
waited for the end, and what was left of the text from the reported place on. -/
structure Stop where
  awaited : Option Terminal
  left : List Char

/-- Whether the reading was inside a setting: past its name and not past its
semicolon. -/
def Stop.insideSetting (stop : Stop) : Bool :=
  match stop.awaited with
  | some .colon | some .value | some .semicolon => true
  | _ => false

/-- A place in a reading: what is left of the text, and what was left when the
last token began. -/
structure Cursor where
  left : List Char
  lastToken : List Char

/-- The cursor before a text, where no token has been read. -/
def Cursor.start (text : List Char) : Cursor :=
  ⟨text, text⟩

/-- Where a reading that cannot go on stops. -/
def Cursor.stop (c : Cursor) (awaited : Option Terminal) : Stop :=
  match skipGap c.left with
  | [] => ⟨awaited, c.lastToken⟩
  | left => ⟨awaited, left⟩

/-- Reads one token, and the gap before it. -/
def read (t : Terminal) (c : Cursor) : Except Stop (String × Cursor) :=
  match t.take? (skipGap c.left) with
  | some (token, left) =>
    .ok (trimmed (String.ofList token), ⟨left, skipGap c.left⟩)
  | none => .error (c.stop (some t))

/-- Reads a setting: name, colon, value and semicolon. -/
def setting (c : Cursor) : Except Stop ((String × String) × Cursor) := do
  let (name, c) ← read .name c
  let (_, c) ← read .colon c
  let (value, c) ← read .value c
  let (_, c) ← read .semicolon c
  return ((name, value), c)

/-- A token leaves less than there was. -/
theorem length_lt_of_read {t : Terminal} {c d : Cursor} {token : String}
    (h : read t c = .ok (token, d)) : d.left.length < c.left.length := by
  unfold read at h
  split at h
  · next htake =>
    cases h
    have := t.length_lt_of_take? htake
    have := (List.dropWhile_suffix isGap (l := c.left)).length_le
    simp only [skipGap] at *
    omega
  · cases h

/-- A setting leaves less than there was. -/
theorem length_lt_of_setting {c d : Cursor} {pair : String × String}
    (h : setting c = .ok (pair, d)) : d.left.length < c.left.length := by
  unfold setting at h
  cases h₁ : read .name c with
  | error => simp [h₁, bind, Except.bind] at h
  | ok r₁ =>
    cases h₂ : read .colon r₁.2 with
    | error => simp [h₁, h₂, bind, Except.bind] at h
    | ok r₂ =>
      cases h₃ : read .value r₂.2 with
      | error => simp [h₁, h₂, h₃, bind, Except.bind] at h
      | ok r₃ =>
        cases h₄ : read .semicolon r₃.2 with
        | error => simp [h₁, h₂, h₃, h₄, bind, Except.bind] at h
        | ok r₄ =>
          simp only [h₁, h₂, h₃, h₄, bind, Except.bind, pure, Except.pure,
            Except.ok.injEq, Prod.mk.injEq] at h
          have := length_lt_of_read h₁
          have := length_lt_of_read h₂
          have := length_lt_of_read h₃
          have := length_lt_of_read h₄
          rw [← h.2]
          omega

/-- Reads settings up to the closing brace, and the brace. -/
def settings (c : Cursor) : Except Stop (List (String × String) × Cursor) :=
  match read .closeBrace c with
  | .ok (_, d) => .ok ([], d)
  | .error _ =>
    match _h : setting c with
    | .error stop => .error stop
    | .ok (pair, d) => (settings d).map fun (pairs, e) => (pair :: pairs, e)
termination_by c.left.length
decreasing_by exact length_lt_of_setting _h

/-- Reads a rule: a selector, and settings in braces. -/
def block (c : Cursor) : Except Stop (Block × Cursor) := do
  let (selector, c) ← read .selector c
  let (_, c) ← read .openBrace c
  let (pairs, c) ← settings c
  return (⟨selector, pairs⟩, c)

/-- Settings leave less than there was. -/
theorem length_lt_of_settings {c d : Cursor} {pairs : List (String × String)}
    (h : settings c = .ok (pairs, d)) : d.left.length < c.left.length := by
  fun_induction settings c generalizing pairs d with
  | case1 c _ d' hclose =>
    cases h
    exact length_lt_of_read hclose
  | case2 => cases h
  | case3 c _ _ pair d' hset ih =>
    cases hrest : settings d' with
    | error => simp [hrest, Except.map] at h
    | ok r =>
      simp only [hrest, Except.map, Except.ok.injEq, Prod.mk.injEq] at h
      have := length_lt_of_setting hset
      have := ih hrest
      rw [← h.2]
      omega

/-- A block leaves less than there was. -/
theorem length_lt_of_block {c d : Cursor} {b : Block}
    (h : block c = .ok (b, d)) :
    d.left.length < c.left.length := by
  unfold block at h
  cases h₁ : read .selector c with
  | error => simp [h₁, bind, Except.bind] at h
  | ok r₁ =>
    cases h₂ : read .openBrace r₁.2 with
    | error => simp [h₁, h₂, bind, Except.bind] at h
    | ok r₂ =>
      cases h₃ : settings r₂.2 with
      | error => simp [h₁, h₂, h₃, bind, Except.bind] at h
      | ok r₃ =>
        simp only [h₁, h₂, h₃, bind, Except.bind, pure, Except.pure,
          Except.ok.injEq, Prod.mk.injEq] at h
        have := length_lt_of_read h₁
        have := length_lt_of_read h₂
        have := length_lt_of_settings h₃
        rw [← h.2]
        omega

/-- Whether nothing but a gap is left. -/
def Cursor.atEnd (c : Cursor) : Bool :=
  (skipGap c.left).isEmpty

/-- Reads rules up to the end of the text. -/
def blocks (c : Cursor) : Except Stop (List Block) :=
  if c.atEnd then .ok []
  else
    match _h : block c with
    | .error stop => .error stop
    | .ok (b, d) => (blocks d).map (b :: ·)
termination_by c.left.length
decreasing_by exact length_lt_of_block _h

/-- What was read, if nothing but a gap follows it. -/
def complete {α : Type} (result : Except Stop (α × Cursor)) : Except Stop α :=
  match result with
  | .error stop => .error stop
  | .ok (value, c) => if c.atEnd then .ok value else .error (c.stop none)

/-- A text without blanks at its ends, read as a whole sheet. -/
def sheetBlocks (text : List Char) : Except Stop (List Block) :=
  blocks (.start text)

/-- A text without blanks at its ends, read as one block. -/
def oneBlock (text : List Char) : Except Stop Block :=
  complete (block (.start text))

/-- A text without blanks at its ends, read as one setting. -/
def oneSetting (text : List Char) : Except Stop (String × String) :=
  complete (setting (.start text))

end SheetBinding.Grammar
