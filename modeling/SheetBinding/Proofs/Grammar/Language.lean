import SheetBinding.Grammar.Terminal
import SheetBinding.Proofs.Text.Blank
import SheetBinding.Proofs.Text.Quotation

/-!
# The languages of the terminals

A terminal is given by a language, and the reader takes the longest text of the
language that it finds at the front (`take?_longest`). For selectors and values
the language is made of units, a unit being a quoted stretch or a plain
character. Where one unit ends and the next begins is settled by its first
character, so a text falls into units in one way only, and taking units one
after the other never has to go back: what has been taken is taken whatever
follows (`takeUnits_append_units`).

A token may run on into the gap behind it, since gap characters are plain.
Trimming gives back what the token should have been, and never more than that:
quotes are not blank, so trimming stops before it comes to the inside of a
quoted stretch (`Units.trimEnd`).
-/

namespace SheetBinding.Grammar

open Text

/-- Texts that fall into quoted stretches and plain characters. -/
inductive Units (plain : Char → Bool) : List Char → Prop where
  | nil : Units plain []
  | quoted {q : Char} {inner rest : List Char} :
      isQuote q = true → Inner q inner → Units plain rest →
        Units plain (q :: (inner ++ q :: rest))
  | plain {c : Char} {rest : List Char} :
      plain c = true → Units plain rest → Units plain (c :: rest)

/-- Texts of units that do not start with a blank. -/
def IsText (plain : Char → Bool) (s : List Char) : Prop :=
  Units plain s ∧ ∃ c rest, s = c :: rest ∧ isBlank c = false

/-- Texts of one character or more, all of them name characters. -/
def IsName (s : List Char) : Prop :=
  s ≠ [] ∧ ∀ c ∈ s, isNameChar c = true

/-- The texts that a terminal stands for. -/
def Terminal.Language : Terminal → List Char → Prop
  | selector => IsText isSelectorChar
  | openBrace => (· = ['\x7b'])
  | closeBrace => (· = ['\x7d'])
  | name => IsName
  | colon => (· = [':'])
  | value => IsText isValueChar
  | semicolon => (· = [';'])

/-! ## Characters -/

theorem isQuote_of_isSelectorChar {c : Char} (h : isSelectorChar c = true) :
    isQuote c = false := by
  cases hc : isQuote c with
  | false => rfl
  | true =>
      rcases isQuote_iff.1 hc with rfl | rfl <;> cases h

theorem isQuote_of_isValueChar {c : Char} (h : isValueChar c = true) :
    isQuote c = false := by
  cases hc : isQuote c with
  | false => rfl
  | true =>
      rcases isQuote_iff.1 hc with rfl | rfl <;> cases h

theorem isSelectorChar_of_isBlank {c : Char} (h : isBlank c = true) :
    isSelectorChar c = true := by
  have hall : ∀ n ∈ blankCodes, isSelectorChar (Char.ofNat n) = true := by
    decide
  exact forall_blank (p := fun c => isSelectorChar c = true) hall h

theorem isValueChar_of_isBlank {c : Char} (h : isBlank c = true) :
    isValueChar c = true := by
  have hall : ∀ n ∈ blankCodes, isValueChar (Char.ofNat n) = true := by decide
  exact forall_blank (p := fun c => isValueChar c = true) hall h

theorem isBlank_of_isNameChar {c : Char} (h : isNameChar c = true) :
    isBlank c = false := by
  cases hc : isBlank c with
  | false => rfl
  | true =>
      have hall : ∀ n ∈ blankCodes, (Char.ofNat n == '-') = false := by decide
      have hdash := forall_blank (p := fun c => (c == '-') = false) hall hc
      rw [isNameChar, isWord_of_isBlank hc, hdash] at h
      cases h

theorem isNameChar_of_isGap {c : Char} (h : isGap c = true) :
    isNameChar c = false := by
  cases hc : isNameChar c with
  | false => rfl
  | true =>
      exact absurd (isBlank_of_isGap h) (by simp [isBlank_of_isNameChar hc])

theorem isBlank_of_isQuote {c : Char} (h : isQuote c = true) :
    isBlank c = false := by
  rcases isQuote_iff.1 h with rfl | rfl <;> decide

/-! ## Units -/

section Units

variable {plain : Char → Bool}

theorem Units.of_forall {s : List Char} (h : ∀ c ∈ s, plain c = true) :
    Units plain s := by
  induction s with
  | nil => exact .nil
  | cons c rest ih =>
      obtain ⟨hc, hrest⟩ := List.forall_mem_cons.1 h
      exact .plain hc (ih hrest)

theorem Units.append {s t : List Char} (hs : Units plain s)
    (ht : Units plain t) :
    Units plain (s ++ t) := by
  induction hs with
  | nil => exact ht
  | quoted hq hinner _ ih =>
      rw [List.cons_append, List.append_assoc, List.cons_append]
      exact .quoted hq hinner ih
  | plain hc _ ih => exact .plain hc ih

/-- Trimming never cuts into a quoted stretch. -/
theorem Units.trimEnd {s : List Char} (h : Units plain s) :
    Units plain (trimEnd s) := by
  induction h with
  | nil => exact .nil
  | @quoted q inner rest hq hinner _ ih =>
      have hsplit : q :: (inner ++ q :: rest) = (q :: inner) ++ q :: rest := rfl
      rw [hsplit, trimEnd_append_cons (isBlank_of_isQuote hq)]
      exact .quoted hq hinner ih
  | plain hc _ ih =>
      rw [trimEnd_cons]
      split
      · exact .nil
      · exact .plain hc ih

theorem takeUnits_quoted {q : Char} {cs inner rest : List Char}
    (hq : isQuote q = true) (h : closeQuote? q cs = some (inner, rest)) :
    takeUnits plain (q :: cs) =
      (q :: inner ++ q :: (takeUnits plain rest).1,
        (takeUnits plain rest).2) := by
  rw [takeUnits]
  simp only [hq, if_true]
  split
  · next inner' rest' h' =>
      rw [h] at h'
      cases h'
      rfl
  · next h' => rw [h] at h'; cases h'

theorem takeUnits_unclosed {q : Char} {cs : List Char} (hq : isQuote q = true)
    (h : closeQuote? q cs = none) : takeUnits plain (q :: cs) =
      ([], q :: cs) := by
  rw [takeUnits]
  simp only [hq, if_true]
  split
  · next h' => rw [h] at h'; cases h'
  · rfl

theorem takeUnits_plain {c : Char} (hq : isQuote c = false)
    (hc : plain c = true) (rest : List Char) :
    takeUnits plain (c :: rest) =
      (c :: (takeUnits plain rest).1, (takeUnits plain rest).2) := by
  rw [takeUnits]
  simp only [hq, hc, Bool.false_eq_true, if_false, if_true]

/-- At a character that begins no unit, nothing is taken. -/
theorem takeUnits_stop {c : Char} (hq : isQuote c = false)
    (hc : plain c = false) (rest : List Char) :
    takeUnits plain (c :: rest) = ([], c :: rest) := by
  rw [takeUnits]
  simp only [hq, hc, Bool.false_eq_true, if_false]

/-- Units at the front are taken whatever follows. -/
theorem takeUnits_append_units
    (hplain : ∀ c, plain c = true → isQuote c = false) {s : List Char}
    (h : Units plain s) (rest : List Char) :
    takeUnits plain (s ++ rest) =
      (s ++ (takeUnits plain rest).1, (takeUnits plain rest).2) := by
  induction h with
  | nil => rfl
  | @quoted q inner tail hq hinner _ ih =>
      rw [List.cons_append, List.append_assoc, List.cons_append,
        takeUnits_quoted hq (closeQuote?_append hq hinner _), ih]
      simp
  | @plain c tail hc _ ih =>
      rw [List.cons_append, takeUnits_plain (hplain c hc) hc, ih]
      rfl

theorem units_takeUnits (cs : List Char) :
    Units plain (takeUnits plain cs).1 := by
  fun_induction takeUnits plain cs with
  | case1 => exact .nil
  | case2 c rest hq inner after h units ih =>
      rw [List.cons_append]
      exact .quoted hq (inner_of_closeQuote? h) ih
  | case3 => exact .nil
  | case4 c rest hq hc units ih => exact .plain hc ih
  | case5 => exact .nil

/-- No text of units at the front is longer than the one that is taken. -/
theorem Units.prefix_takeUnits
    (hplain : ∀ c, plain c = true → isQuote c = false) {s cs : List Char}
    (h : Units plain s) (hs : s <+: cs) : s <+: (takeUnits plain cs).1 := by
  obtain ⟨rest, rfl⟩ := hs
  rw [takeUnits_append_units hplain h]
  exact List.prefix_append _ _

/-- A text token is taken up to the character that stops it, with the gap that
stands before that. -/
theorem takeText?_append (hplain : ∀ c, plain c = true → isQuote c = false)
    (hblank : ∀ c, isBlank c = true → plain c = true) {s w : List Char}
      (hs : IsText plain s)
    (hw : Gap w) {stop : Char} (hquote : isQuote stop = false)
      (hstop : plain stop = false)
    (rest : List Char) :
    takeText? plain (s ++ (w ++ stop :: rest)) =
      some (s ++ w, stop :: rest) := by
  obtain ⟨hunits, c, tail, rfl, hc⟩ := hs
  have hall : Units plain ((c :: tail) ++ w) :=
    hunits.append (.of_forall fun d hd => hblank d (isBlank_of_isGap (hw d hd)))
  have htake := takeUnits_append_units hplain hall (stop :: rest)
  rw [takeUnits_stop hquote hstop, List.append_nil, List.append_assoc] at htake
  rw [takeText?, htake, if_neg]
  simp [hc]

/-- What the trimmed token holds is again such a text. -/
theorem IsText.trimEnd {s : List Char} (h : IsText plain s) :
    IsText plain (trimEnd s) := by
  obtain ⟨hunits, c, rest, rfl, hc⟩ := h
  refine ⟨hunits.trimEnd, c, Text.trimEnd rest, ?_, hc⟩
  exact trimEnd_append_cons hc [] rest

theorem IsText.trim_eq {s : List Char} (h : IsText plain s) :
    trim s = Text.trimEnd s := by
  obtain ⟨-, c, rest, rfl, hc⟩ := h
  rw [trim_cons hc]
  exact (trimEnd_append_cons hc [] rest).symm

theorem isText_of_takeText? {cs token left : List Char}
    (h : takeText? plain cs = some (token, left)) : IsText plain token := by
  have happend := append_of_takeText? h
  simp only [takeText?, Option.ite_none_left_eq_some, Option.some.injEq] at h
  obtain ⟨hne, hunits⟩ := h
  have htoken : Units plain token := by
    have htake : Units plain (takeUnits plain cs).1 := units_takeUnits cs
    rwa [hunits] at htake
  cases token with
  | nil => exact absurd rfl happend.1
  | cons c rest =>
      refine ⟨htoken, c, rest, rfl, ?_⟩
      rw [← happend.2] at hne
      simp only [List.cons_append, List.head?_cons, Option.all_some,
        Bool.or_eq_true, not_or] at hne
      simpa using hne.1

end Units

/-! ## Tokens -/

theorem Terminal.language_of_take? {t : Terminal} {cs token left : List Char}
    (h : t.take? cs = some (token, left)) : t.Language token := by
  have hchar : ∀ {c : Char}, takeChar? c cs = some (token, left) →
      token = [c] := by
    intro c h
    cases cs with
    | nil => cases h
    | cons d rest =>
        simp only [takeChar?, Option.ite_none_right_eq_some, Option.some.injEq,
          Prod.mk.injEq] at h
        obtain ⟨hd, rfl, -⟩ := h
        rw [eq_of_beq hd]
  cases t with
  | selector | value => exact isText_of_takeText? h
  | openBrace | closeBrace | colon | semicolon => exact hchar h
  | name =>
      have hne := (append_of_takeName? h).1
      simp only [take?, takeName?, Option.ite_none_left_eq_some,
        Option.some.injEq, Prod.mk.injEq] at h
      obtain ⟨-, rfl, -⟩ := h
      exact ⟨hne, fun c hc => List.mem_takeWhile_imp hc⟩

/-- A name is taken up to the first character that no name holds. -/
theorem takeName?_append {s : List Char} (hs : IsName s) {rest : List Char}
    (hstop : ∀ c ∈ rest.head?, isNameChar c = false) : takeName? (s ++ rest) =
      some (s, rest) := by
  have hrest : rest.takeWhile isNameChar = [] ∧
      rest.dropWhile isNameChar = rest := by
    cases rest with
    | nil => exact ⟨rfl, rfl⟩
    | cons c rest =>
        have hc := hstop c (by simp)
        exact ⟨List.takeWhile_cons_of_neg (by simp [hc]),
          List.dropWhile_cons_of_neg (by simp [hc])⟩
  rw [takeName?, List.takeWhile_append_of_pos hs.2,
    List.dropWhile_append_of_pos hs.2, hrest.1, hrest.2, List.append_nil,
    if_neg (by simpa using hs.1)]

/-- The reader takes the longest text of a terminal's language that stands at
the front. -/
theorem Terminal.take?_longest {t : Terminal} {s cs : List Char}
    (hs : t.Language s) (hpre : s <+: cs) :
    ∃ token left, t.take? cs = some (token, left) ∧ s <+: token := by
  have htext : ∀ {plain : Char → Bool},
    (∀ c, plain c = true → isQuote c = false) →
      IsText plain s → ∃ token left, takeText? plain cs = some (token, left) ∧
        s <+: token := by
    intro plain hplain htext
    have htaken := htext.1.prefix_takeUnits hplain hpre
    obtain ⟨hunits, c, rest, rfl, hc⟩ := htext
    obtain ⟨tail, rfl⟩ := hpre
    have hne : (takeUnits plain (c :: rest ++ tail)).1 ≠ [] := by
      intro h
      rw [h] at htaken
      exact absurd (List.prefix_nil.1 htaken) (by simp)
    refine ⟨(takeUnits plain (c :: rest ++ tail)).1,
      (takeUnits plain (c :: rest ++ tail)).2, ?_, htaken⟩
    rw [takeText?, if_neg]
    simp only [List.cons_append] at hne
    simp [hc, hne]
  have hchar : ∀ {c : Char}, s = [c] →
      ∃ token left, takeChar? c cs = some (token, left) ∧ s <+: token := by
    rintro c rfl
    obtain ⟨rest, rfl⟩ := hpre
    exact ⟨[c], rest, by simp [takeChar?], List.prefix_rfl⟩
  cases t with
  | selector => exact htext (fun c => isQuote_of_isSelectorChar) hs
  | value => exact htext (fun c => isQuote_of_isValueChar) hs
  | openBrace | closeBrace | colon | semicolon => exact hchar hs
  | name =>
      obtain ⟨rest, rfl⟩ := hpre
      refine ⟨s ++ rest.takeWhile isNameChar, rest.dropWhile isNameChar, ?_,
        List.prefix_append _ _⟩
      rw [take?, takeName?, List.takeWhile_append_of_pos hs.2,
        List.dropWhile_append_of_pos hs.2, if_neg]
      simp [hs.1]

end SheetBinding.Grammar
