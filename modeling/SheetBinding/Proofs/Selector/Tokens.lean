import SheetBinding.Proofs.Text.LineEnds
import SheetBinding.Selector.Token

/-!
# The scanners of selectors

What each scanner does at the front of a text, one equation for each case, so
that an induction over a text need not open its definition: the digits of an
escaped code point and the blank behind them, the length of a name, of a string,
of a number and of a comment, and last the choice between tokens (`tokenAt`).
-/

namespace SheetBinding.Selector

open Text

variable {c : Char} {l : List Char} {n : Nat}

/-! ## Escapes -/

theorem not_isHex_of_isSpace (h : isSpace c = true) : isHex c = false := by
  simp only [isSpace, isGap, Bool.or_eq_true, beq_iff_eq] at h
  rcases h with (((rfl | rfl) | rfl) | rfl) | rfl <;> decide

theorem ne_of_isHex (h : isHex c = true) : c ≠ '\\' ∧ c ≠ '\r' ∧ c ≠ '\n' := by
  refine ⟨?_, ?_, ?_⟩ <;> rintro rfl <;> cases h

theorem isBreak_iff : isBreak c = true ↔ c = '\n' ∨ c = '\r' ∨ c = '\x0c' := by
  rw [isBreak, Bool.or_eq_true, Bool.or_eq_true, beq_iff_eq, beq_iff_eq,
    beq_iff_eq, or_assoc]

/-- The digits of a code point: six at most. -/
def codeDigits (l : List Char) : List Char :=
  (l.take 6).takeWhile isHex

/-- How many characters of a text are the blank that ends the digits before
it. -/
def gapLength : List Char → Nat
  | '\r' :: '\n' :: _ => 2
  | b :: _ => if isSpace b then 1 else 0
  | [] => 0

theorem isHex_of_mem_codeDigits {d : Char} (h : d ∈ codeDigits l) :
    isHex d = true :=
  List.mem_takeWhile_imp h

theorem length_codeDigits_le (l : List Char) : (codeDigits l).length ≤ 6 :=
  ((List.takeWhile_sublist _).length_le).trans (List.length_take_le 6 l)

theorem codeDigits_front (l : List Char) : codeDigits l <+: l :=
  (List.takeWhile_prefix _).trans (List.take_prefix 6 l)

theorem codeDigits_eq_takeWhile (l : List Char) :
    codeDigits l = (l.takeWhile isHex).take 6 :=
  List.take_takeWhile.symm

theorem gapLength_cons (h : Unpaired c l) :
    gapLength (c :: l) = if isSpace c then 1 else 0 := by
  rw [gapLength.eq_def]
  split
  · next he =>
      cases he
      exact absurd rfl (h rfl)
  · next he =>
      cases he
      rfl
  · next he => cases he

theorem escapeLength?_of_isHex (h : isHex c = true) (l : List Char) :
    escapeLength? (c :: l) = some ((codeDigits (c :: l)).length +
      gapLength ((c :: l).drop (codeDigits (c :: l)).length)) := by
  rw [escapeLength?, if_pos h]
  dsimp only
  rw [← codeDigits]
  generalize (c :: l).drop (codeDigits (c :: l)).length = back
  cases back with
  | nil => rfl
  | cons b rest =>
      by_cases hpair : Unpaired b rest
      · rw [gapLength_cons hpair]
        split
        · next he =>
            cases he
            exact absurd rfl (hpair rfl)
        · next he =>
            cases he
            split <;> rfl
        · next he => cases he
      · obtain ⟨rfl, rest, rfl⟩ := exists_of_not_unpaired hpair
        rfl

theorem escapeLength?_of_not_isHex (h : isHex c = false) (l : List Char) :
    escapeLength? (c :: l) = if isBreak c then none else some 1 := by
  rw [escapeLength?, h, if_neg Bool.false_ne_true]

/-! ## Names -/

theorem nameLength_nil (r : Nat) : nameLength r [] = 0 := by
  cases r <;> rfl

/-- Rounds to spare change nothing. -/
theorem nameLength_of_le {r : Nat} (h : l.length ≤ r) :
    nameLength r l = nameLength l.length l := by
  have hspare : ∀ {r r' : Nat} {l : List Char}, l.length ≤ r → l.length ≤ r' →
      nameLength r l = nameLength r' l := by
    intro r
    induction r with
    | zero =>
        intro r' l h _
        obtain rfl := List.length_eq_zero_iff.1 (Nat.le_zero.1 h)
        exact (nameLength_nil r').symm
    | succ r ih =>
        intro r' l h h'
        cases l with
        | nil => rw [nameLength_nil, nameLength_nil]
        | cons c rest =>
            rw [List.length_cons] at h h'
            obtain ⟨r', rfl⟩ : ∃ k, r' = k + 1 := ⟨r' - 1, by omega⟩
            have hdrop : ∀ n, nameLength r (rest.drop n) =
                nameLength r' (rest.drop n) := fun n => ih (by
              rw [List.length_drop]; omega) (by rw [List.length_drop]; omega)
            rw [nameLength, nameLength,
              show nameLength r rest = nameLength r' rest from hdrop 0]
            simp only [hdrop]
  exact hspare h (Nat.le_refl _)

/-- The length of the name at the start of a text. -/
def nameSpan (l : List Char) : Nat :=
  nameLength l.length l

theorem nameSpan_cons (h : c ≠ '\\') (l : List Char) :
    nameSpan (c :: l) = if continuesName c then 1 + nameSpan l else 0 := by
  rw [nameSpan, List.length_cons, nameLength, if_neg (by simpa using h),
    nameSpan]

theorem nameSpan_escape (h : escapeLength? l = some n) :
    nameSpan ('\\' :: l) = n + 1 + nameSpan (l.drop n) := by
  have hdrop : (l.drop n).length ≤ l.length := by
    rw [List.length_drop]
    omega
  rw [nameSpan, List.length_cons, nameLength, if_pos (by decide), h, nameSpan,
    ← nameLength_of_le hdrop]

theorem nameSpan_escape_none (h : escapeLength? l = none) :
    nameSpan ('\\' :: l) = 0 := by
  rw [nameSpan, List.length_cons, nameLength, if_pos (by decide), h]

/-- The length of what begins a text as the name of an identifier does behind
its hyphen. -/
def startLength (l : List Char) : Nat :=
  if l.head?.any fun c => c == '\\' || startsName c then nameSpan l else 0

theorem identLength_hyphen (l : List Char) :
    identLength ('-' :: l) = if startLength l = 0 then 0
      else 1 + startLength l := by
  cases l with
  | nil => rfl
  | cons c rest =>
      rw [identLength, startLength, List.head?_cons, Option.any_some]
      dsimp only
      rw [← nameSpan]
      split
      · simp only [beq_iff_eq]
      · rfl

theorem identLength_of_ne (h : l.head? ≠ some '-') :
    identLength l = startLength l := by
  cases l with
  | nil => rfl
  | cons c rest =>
      rw [identLength, startLength, List.head?_cons, Option.any_some]
      · dsimp only
        split
        · simp only [beq_iff_eq, Nat.zero_add]
          split
          · next h => exact h.symm
          · rfl
        · rfl
      · intro rest' he
        cases he
        exact h rfl

/-! ## Strings -/

/-- What a backslash takes in a string. -/
def escapedLength? (l : List Char) : Option Nat :=
  match l with
  | '\r' :: '\n' :: _ => some 2
  | b :: _ => if isBreak b then some 1 else escapeLength? l
  | [] => none

theorem escapedLength?_cons (h : Unpaired c l) :
    escapedLength? (c :: l) = if isBreak c then some 1
      else escapeLength? (c :: l) := by
  rw [escapedLength?.eq_def]
  split
  · next he =>
      cases he
      exact absurd rfl (h rfl)
  · next he =>
      cases he
      rfl
  · next he => cases he

/-- Rounds to spare change nothing. -/
theorem stringLength?_of_le {q : Char} {r : Nat} (h : l.length ≤ r) :
    stringLength? q r l = stringLength? q l.length l := by
  have hspare : ∀ {r r' : Nat} {l : List Char}, l.length ≤ r → l.length ≤ r' →
      stringLength? q r l = stringLength? q r' l := by
    have hnil : ∀ r, stringLength? q r [] = none := fun r => by cases r <;> rfl
    intro r
    induction r with
    | zero =>
        intro r' l h _
        obtain rfl := List.length_eq_zero_iff.1 (Nat.le_zero.1 h)
        rw [hnil, hnil]
    | succ r ih =>
        intro r' l h h'
        cases l with
        | nil => rw [hnil, hnil]
        | cons c rest =>
            rw [List.length_cons] at h h'
            obtain ⟨r', rfl⟩ : ∃ k, r' = k + 1 := ⟨r' - 1, by omega⟩
            have hdrop : ∀ n, stringLength? q r (rest.drop n) =
                stringLength? q r' (rest.drop n) := fun n => ih (by
              rw [List.length_drop]; omega) (by rw [List.length_drop]; omega)
            rw [stringLength?.eq_def, stringLength?.eq_def]
            dsimp only
            rw [show stringLength? q r rest =
              stringLength? q r' rest from hdrop 0]
            simp only [hdrop]
  exact hspare h (Nat.le_refl _)

/-- The length of the inside of a string, what follows its quote being given. -/
def stringSpan? (q : Char) (l : List Char) : Option Nat :=
  stringLength? q l.length l

theorem stringSpan?_close (q : Char) (l : List Char) :
    stringSpan? q (q :: l) = some 0 := by
  rw [stringSpan?, List.length_cons, stringLength?.eq_def]
  dsimp only
  rw [if_pos (beq_self_eq_true q)]

theorem stringSpan?_cons {q : Char} (hq : c ≠ q) (h : c ≠ '\\')
    (l : List Char) :
    stringSpan? q (c :: l) = if isBreak c then none
      else (stringSpan? q l).map (1 + ·) := by
  rw [stringSpan?, List.length_cons, stringLength?.eq_def]
  dsimp only
  rw [if_neg (by simpa using hq), if_neg (by simpa using h), stringSpan?]

theorem stringSpan?_escape {q : Char} (hq : q ≠ '\\') (l : List Char) :
    stringSpan? q ('\\' :: l) = (escapedLength? l).bind fun n =>
      (stringSpan? q (l.drop n)).map (n + 1 + ·) := by
  have hdrop : ∀ n, stringLength? q l.length (l.drop n) =
      stringSpan? q (l.drop n) :=
    fun n => stringLength?_of_le (by rw [List.length_drop]; omega)
  rw [stringSpan?, List.length_cons, stringLength?.eq_def]
  dsimp only
  rw [if_neg (by simpa using hq.symm), if_pos (by decide)]
  simp only [hdrop]
  split
  · next n h => rw [show escapedLength? l = some n from h, Option.bind_some]
  · next h => rw [show escapedLength? l = none from h, Option.bind_none]

/-! ## Numbers and comments -/

/-- The length of the fraction at the start of a text, with its point. -/
def fractionLength (l : List Char) : Nat :=
  match l with
  | '.' :: more =>
    if (more.takeWhile Char.isDigit).length = 0 then 0
    else 1 + (more.takeWhile Char.isDigit).length
  | _ => 0

/-- The length of the number at the start of a text that has no sign. -/
def unsignedLength (l : List Char) : Nat :=
  (l.takeWhile Char.isDigit).length +
    fractionLength (l.drop (l.takeWhile Char.isDigit).length)

theorem numberLength_eq (l : List Char) : numberLength l =
    if l.head? = some '+' ∨ l.head? = some '-' then
      if unsignedLength l.tail = 0 then 0 else 1 + unsignedLength l.tail
    else unsignedLength l := by
  have hunsigned : ∀ (sign : Nat) (rest : List Char),
      (match rest.drop (rest.takeWhile Char.isDigit).length with
        | '.' :: more =>
          let fraction := (more.takeWhile Char.isDigit).length
          if fraction == 0 then
            (if (rest.takeWhile Char.isDigit).length == 0 then 0
              else sign + (rest.takeWhile Char.isDigit).length)
          else sign + (rest.takeWhile Char.isDigit).length + 1 + fraction
        | _ => if (rest.takeWhile Char.isDigit).length == 0 then 0
            else sign + (rest.takeWhile Char.isDigit).length) =
        if unsignedLength rest = 0 then 0 else sign + unsignedLength rest := by
    intro sign rest
    rw [unsignedLength]
    generalize (rest.takeWhile Char.isDigit).length = whole
    rw [fractionLength.eq_def]
    split
    · simp only [beq_iff_eq]
      split
      · rfl
      · rw [if_neg (by omega), Nat.add_assoc, Nat.add_assoc]
    · simp only [beq_iff_eq, Nat.add_zero]
  unfold numberLength
  split
  next sign rest he =>
  refine (hunsigned sign rest).trans ?_
  split at he
  · cases he
    rfl
  · cases he
    rfl
  · next hplus hminus =>
      cases he
      have hhead : ¬ (l.head? = some '+' ∨ l.head? = some '-') := by
        rintro (h | h)
        · exact (List.head?_eq_some_iff.1 h).elim hplus
        · exact (List.head?_eq_some_iff.1 h).elim hminus
      rw [if_neg hhead]
      split
      · next h => exact h.symm
      · exact Nat.zero_add _

theorem afterComment_cons (h : c ≠ '*' ∨ l.head? ≠ some '/') :
    afterComment (c :: l) = afterComment l := by
  rw [afterComment]
  rintro rest rfl rfl
  exact h.elim (· rfl) (· rfl)

/-! ## Tokens -/

theorem tokensWithin_nil (r : Nat) : tokensWithin r [] = some [] := by
  cases r <;> rfl

/-- The token at the front of a text, if there is one, and how many characters
it takes. A comment is no token; there is nothing where a string does not close,
and in the empty text. -/
def piece? (l : List Char) : Option (Option Token × Nat) :=
  match l with
  | [] => none
  | c :: rest =>
    if isSpace c then some (some .blank, (l.takeWhile isSpace).length)
    else if identLength l ≠ 0 then
      some (some (.ident (undoEscapes (l.take (identLength l)))), identLength l)
    else if c = '#' ∧ nameSpan rest ≠ 0 then
      some (some (.hash (undoEscapes (rest.take (nameSpan rest)))), 1 +
        nameSpan rest)
    else if c = '"' ∨ c = '\'' then
      (stringSpan? c rest).map fun n =>
        (some (.string (undoEscapes (joinLines (rest.take n)))), n + 2)
    else if numberLength l ≠ 0 then
      some (some (.number (String.ofList (l.take (numberLength l)))),
        numberLength l)
    else if c = '/' ∧ rest.head? = some '*' then
      some (none, l.length - (afterComment rest.tail).length)
    else some (some (.delim c), 1)

theorem piece?_of_isSpace (h : isSpace c = true) (l : List Char) :
    piece? (c :: l) =
      some (some .blank, ((c :: l).takeWhile isSpace).length) := by
  rw [piece?, if_pos h]

theorem afterComment_suffix (l : List Char) : afterComment l <:+ l := by
  fun_induction afterComment l with
  | case1 => exact List.suffix_rfl
  | case2 rest => exact (List.suffix_cons _ _).trans (List.suffix_cons _ _)
  | case3 c rest _ ih => exact ih.trans (List.suffix_cons _ _)

theorem drop_comment (c : Char) (l : List Char) :
    (c :: l).drop ((c :: l).length - (afterComment l.tail).length) =
      afterComment l.tail := by
  have hsuffix := (afterComment_suffix l.tail).trans
    ((List.tail_suffix l).trans (List.suffix_cons c l))
  exact (List.suffix_iff_eq_drop.1 hsuffix).symm

theorem drop_length_takeWhile {α : Type} (p : α → Bool) (l : List α) :
    l.drop (l.takeWhile p).length = l.dropWhile p := by
  have h : (l.takeWhile p ++ l.dropWhile p).drop (l.takeWhile p).length =
      l.dropWhile p := List.drop_left
  rwa [List.takeWhile_append_dropWhile] at h

theorem piece?_pos {token : Option Token}
    (h : piece? l = some (token, n)) : 0 < n := by
  rw [piece?.eq_def] at h
  split at h
  · cases h
  · next c rest =>
      split at h
      · next hspace =>
          cases h
          rw [List.takeWhile_cons_of_pos hspace]
          exact Nat.succ_pos _
      split at h
      · next hident =>
          cases h
          exact Nat.pos_of_ne_zero hident
      split at h
      · cases h
        exact Nat.lt_add_right _ Nat.one_pos
      split at h
      · obtain ⟨inside, -, he⟩ := Option.map_eq_some_iff.1 h
        cases he
        exact Nat.succ_pos _
      split at h
      · next hnumber =>
          cases h
          exact Nat.pos_of_ne_zero hnumber
      split at h
      · cases h
        have hlength := (afterComment_suffix rest.tail).length_le.trans
          (List.tail_suffix rest).length_le
        rw [List.length_cons]
        omega
      · cases h
        exact Nat.one_pos

/-- The lexer takes one piece after the other. -/
theorem tokensWithin_cons (r : Nat) (c : Char) (l : List Char) :
    tokensWithin (r + 1) (c :: l) = (piece? (c :: l)).bind fun piece =>
      (tokensWithin r ((c :: l).drop piece.2)).map (piece.1.toList ++ ·) := by
  rw [tokensWithin, piece?]
  dsimp only
  rw [List.length_cons, stringLength?_of_le (Nat.le_succ l.length),
    ← stringSpan?, ← nameSpan]
  by_cases hspace : isSpace c = true
  · rw [if_pos hspace, if_pos hspace, Option.bind_some, drop_length_takeWhile]
    rfl
  rw [if_neg hspace, if_neg hspace]
  simp only [bne_iff_ne]
  by_cases hident : identLength (c :: l) = 0
  · rw [if_neg (not_not.2 hident), if_neg (not_not.2 hident)]
    by_cases hhash : c = '#' ∧ nameSpan l ≠ 0
    · rw [if_pos hhash]
      obtain ⟨rfl, hlength⟩ := hhash
      simp only [beq_self_eq_true, if_true]
      rw [if_pos hlength, Option.bind_some, Nat.add_comm, List.drop_succ_cons]
      rfl
    · have hzero : (if c == '#' then nameSpan l else 0) = 0 := by
        split
        · next hc =>
            exact not_not.1 fun hlength => hhash ⟨eq_of_beq hc, hlength⟩
        · rfl
      rw [if_neg hhash, hzero, if_neg (by simp)]
      simp only [Bool.or_eq_true, beq_iff_eq, Bool.and_eq_true]
      by_cases hquote : c = '"' ∨ c = '\''
      · rw [if_pos hquote, if_pos hquote]
        cases stringSpan? c l <;> rfl
      rw [if_neg hquote, if_neg hquote]
      by_cases hnumber : numberLength (c :: l) = 0
      · rw [if_neg (not_not.2 hnumber), if_neg (not_not.2 hnumber)]
        by_cases hcomment : c = '/' ∧ l.head? = some '*'
        · rw [if_pos hcomment, if_pos hcomment, Option.bind_some,
            ← List.length_cons, drop_comment, List.drop_one]
          simp
        · rw [if_neg hcomment, if_neg hcomment, Option.bind_some]
          rfl
      · rw [if_pos hnumber, if_pos hnumber, Option.bind_some]
        rfl
  · rw [if_pos hident, if_pos hident, Option.bind_some]
    rfl

/-- Rounds to spare change nothing. -/
theorem tokensWithin_of_le {r : Nat} (h : l.length ≤ r) :
    tokensWithin r l = tokens? l := by
  have hspare : ∀ {r r' : Nat} {l : List Char}, l.length ≤ r → l.length ≤ r' →
      tokensWithin r l = tokensWithin r' l := by
    intro r
    induction r with
    | zero =>
        intro r' l h _
        obtain rfl := List.length_eq_zero_iff.1 (Nat.le_zero.1 h)
        exact (tokensWithin_nil r').symm
    | succ r ih =>
        intro r' l h h'
        cases l with
        | nil => rw [tokensWithin_nil, tokensWithin_nil]
        | cons c rest =>
            rw [List.length_cons] at h h'
            obtain ⟨r', rfl⟩ : ∃ k, r' = k + 1 := ⟨r' - 1, by omega⟩
            rw [tokensWithin_cons, tokensWithin_cons]
            cases hpiece : piece? (c :: rest) with
            | none => rfl
            | some piece =>
                have hn := piece?_pos hpiece
                have hlength : ((c :: rest).drop piece.2).length ≤
                    rest.length := by
                  rw [List.length_drop, List.length_cons]
                  omega
                have hrest : tokensWithin r ((c :: rest).drop piece.2) =
                    tokensWithin r' ((c :: rest).drop piece.2) :=
                  ih (by omega) (by omega)
                rw [Option.bind_some, Option.bind_some, hrest]
  exact hspare h (Nat.le_refl _)

theorem tokens?_of_piece?_none (h : piece? (c :: l) = none) :
    tokens? (c :: l) = none := by
  rw [tokens?, List.length_cons, tokensWithin_cons, h, Option.bind_none]

/-- The tokens of a text, its first piece apart. -/
theorem tokens?_of_piece? {token : Option Token}
    (h : piece? l = some (token, n)) :
    tokens? l = (tokens? (l.drop n)).map (token.toList ++ ·) := by
  cases l with
  | nil => cases h
  | cons c rest =>
      have hn := piece?_pos h
      have hlength : ((c :: rest).drop n).length ≤ rest.length := by
        rw [List.length_drop, List.length_cons]
        omega
      rw [tokens?, List.length_cons, tokensWithin_cons, h, Option.bind_some,
        tokensWithin_of_le hlength]

theorem eq_cons_of_piece?_delim {d : Char}
    (h : piece? l = some (some (.delim d), n)) :
    n = 1 ∧ ∃ rest, l = d :: rest := by
  rw [piece?.eq_def] at h
  split at h
  · cases h
  · next c rest =>
      split at h
      · cases h
      split at h
      · cases h
      split at h
      · cases h
      split at h
      · obtain ⟨inside, -, he⟩ := Option.map_eq_some_iff.1 h
        cases he
      split at h
      · cases h
      split at h
      · cases h
      · cases h
        exact ⟨rfl, rest, rfl⟩

end SheetBinding.Selector
