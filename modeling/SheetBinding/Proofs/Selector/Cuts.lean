import SheetBinding.Proofs.Selector.Tokens

/-!
# Selectors cut between tokens

A scanner goes through a text from its front and stops where a character does
not go on from those before it. What it takes it takes as well when the text is
cut right there or further on: the end of a text lets it take nothing that
another character would not. So every piece in front of a cut stays what it was,
and a comma that is a token cuts a text in two, each with the tokens on its side
(`exists_tokens?_cut`).
-/

namespace SheetBinding.Selector

open Text

variable {c q : Char} {l t : List Char} {n : Nat}

/-! ## Escapes -/

theorem takeWhile_of_append {p : Char → Bool}
    (h : ((l ++ t).takeWhile p).length ≤ l.length) :
    l.takeWhile p = (l ++ t).takeWhile p := by
  rw [List.takeWhile_append] at h ⊢
  split
  · next hall =>
      rw [if_pos hall, List.length_append] at h
      rw [List.eq_nil_of_length_eq_zero (l := t.takeWhile p) (by omega),
        List.append_nil]
      exact (List.takeWhile_prefix p).eq_of_length hall
  · rfl

theorem codeDigits_of_append (h : (codeDigits (l ++ t)).length ≤ l.length) :
    codeDigits l = codeDigits (l ++ t) := by
  have hsix := length_codeDigits_le (l ++ t)
  rw [codeDigits, List.take_append] at h hsix
  rw [codeDigits, codeDigits, List.take_append]
  exact takeWhile_of_append (by rw [List.length_take]; omega)

theorem gapLength_of_append (h : gapLength (l ++ t) ≤ l.length) :
    gapLength l = gapLength (l ++ t) := by
  cases l with
  | nil => exact (Nat.le_zero.1 h).symm
  | cons c l =>
      by_cases hpair : Unpaired c (l ++ t)
      · rw [List.cons_append, gapLength_cons hpair,
          gapLength_cons hpair.of_append]
      · obtain ⟨rfl, rest, hrest⟩ := exists_of_not_unpaired hpair
        cases l with
        | nil =>
            rw [List.cons_append, hrest] at h
            exact absurd h (by rw [gapLength, List.length_singleton]; decide)
        | cons d l =>
            cases hrest
            rfl

theorem pos_of_escapeLength? (h : escapeLength? l = some n) : 0 < n := by
  cases l with
  | nil => cases h
  | cons c rest =>
      by_cases hhex : isHex c = true
      · rw [escapeLength?_of_isHex hhex, codeDigits, List.take_succ_cons,
          List.takeWhile_cons_of_pos hhex, Option.some_inj,
          List.length_cons] at h
        omega
      · rw [escapeLength?_of_not_isHex (Bool.eq_false_iff.2 hhex)] at h
        split at h
        · cases h
        · cases h
          exact Nat.one_pos

/-- An escape that ends before a cut is not changed by it. -/
theorem escapeLength?_of_append (h : escapeLength? (l ++ t) = some n)
    (hn : n ≤ l.length) :
    escapeLength? l = some n := by
  cases l with
  | nil => exact absurd (pos_of_escapeLength? h) (Nat.not_lt.2 hn)
  | cons c l =>
      by_cases hhex : isHex c = true
      · rw [List.cons_append, escapeLength?_of_isHex hhex, ← List.cons_append,
          Option.some_inj] at h
        have hdigits : codeDigits (c :: l) = codeDigits (c :: l ++ t) :=
          codeDigits_of_append (by omega)
        rw [← hdigits] at h
        rw [List.drop_append_of_le_length (codeDigits_front (c :: l)).length_le]
          at h
        rw [escapeLength?_of_isHex hhex, gapLength_of_append (t := t), h]
        rw [List.length_drop]
        omega
      · have hplain := escapeLength?_of_not_isHex (Bool.eq_false_iff.2 hhex)
        rw [List.cons_append, hplain] at h
        rw [hplain, h]

theorem escapeLength?_of_append_none (h : escapeLength? (l ++ t) = none) :
    escapeLength? l = none := by
  cases l with
  | nil => rfl
  | cons c l =>
      by_cases hhex : isHex c = true
      · rw [List.cons_append, escapeLength?_of_isHex hhex] at h
        cases h
      · have hplain := escapeLength?_of_not_isHex (Bool.eq_false_iff.2 hhex)
        rw [List.cons_append, hplain] at h
        rw [hplain, h]

theorem escapedLength?_of_append (h : escapedLength? (l ++ t) = some n)
    (hn : n < l.length) :
    escapedLength? l = some n := by
  cases l with
  | nil => cases hn
  | cons c l =>
      by_cases hpair : Unpaired c (l ++ t)
      · rw [List.cons_append, escapedLength?_cons hpair] at h
        rw [escapedLength?_cons hpair.of_append]
        split
        · next hbreak =>
            rw [if_pos hbreak] at h
            exact h
        · next hbreak =>
            rw [if_neg hbreak] at h
            exact escapeLength?_of_append h (Nat.le_of_lt hn)
      · obtain ⟨rfl, rest, hrest⟩ := exists_of_not_unpaired hpair
        rw [List.cons_append, hrest] at h
        cases h
        cases l with
        | nil => exact absurd hn (by decide)
        | cons d l =>
            cases hrest
            rfl

/-! ## Names, strings, numbers and comments -/

theorem nameSpan_of_append {l : List Char} (h : nameSpan (l ++ t) ≤ l.length) :
    nameSpan l = nameSpan (l ++ t) := by
  match l with
  | [] => exact (Nat.le_zero.1 h).symm
  | c :: rest =>
      by_cases hc : c = '\\'
      · subst hc
        cases hlength : escapeLength? (rest ++ t) with
        | none =>
            rw [List.cons_append, nameSpan_escape_none hlength,
              nameSpan_escape_none (escapeLength?_of_append_none hlength)]
        | some k =>
            rw [List.cons_append, nameSpan_escape hlength,
              List.length_cons] at h
            have hk : k ≤ rest.length := by omega
            rw [List.drop_append_of_le_length hk] at h
            rw [List.cons_append, nameSpan_escape hlength,
              nameSpan_escape (escapeLength?_of_append hlength hk),
              List.drop_append_of_le_length hk, nameSpan_of_append]
            rw [List.length_drop]
            omega
      · rw [List.cons_append, nameSpan_cons hc] at h
        rw [List.cons_append, nameSpan_cons hc, nameSpan_cons hc]
        split
        · next hname =>
            rw [if_pos hname, List.length_cons] at h
            rw [nameSpan_of_append (by omega)]
        · rfl
termination_by l.length

theorem startLength_of_append (h : startLength (l ++ t) ≤ l.length) :
    startLength l = startLength (l ++ t) := by
  cases l with
  | nil => exact (Nat.le_zero.1 h).symm
  | cons c l =>
      rw [startLength] at h
      rw [startLength, startLength, List.cons_append, List.head?_cons,
        List.head?_cons, ← List.cons_append]
      split
      · next hstart =>
          rw [List.cons_append, List.head?_cons, if_pos hstart,
            ← List.cons_append] at h
          exact nameSpan_of_append h
      · rfl

theorem identLength_of_append (h : identLength (l ++ t) ≤ l.length) :
    identLength l = identLength (l ++ t) := by
  cases l with
  | nil => exact (Nat.le_zero.1 h).symm
  | cons c l =>
      by_cases hc : c = '-'
      · subst hc
        rw [List.cons_append, identLength_hyphen, List.length_cons] at h
        have hsame : startLength l = startLength (l ++ t) :=
          startLength_of_append (by split at h <;> omega)
        rw [List.cons_append, identLength_hyphen, identLength_hyphen, hsame]
      · have hhyphen : ∀ rest : List Char, (c :: rest).head? ≠ some '-' :=
          fun rest => by
          simpa using hc
        rw [List.cons_append, identLength_of_ne (hhyphen _),
          ← List.cons_append] at h
        rw [List.cons_append, identLength_of_ne (hhyphen _),
          identLength_of_ne (hhyphen _), ← List.cons_append]
        exact startLength_of_append h

/-- A string that closes before a cut is not changed by it. -/
theorem stringSpan?_of_append {l : List Char} {n : Nat} (hq : q ≠ '\\')
    (h : stringSpan? q (l ++ t) = some n) (hn : n < l.length) :
      stringSpan? q l = some n := by
  match l with
  | [] => cases hn
  | c :: rest =>
      rw [List.length_cons] at hn
      by_cases hclose : c = q
      · subst hclose
        rw [List.cons_append, stringSpan?_close] at h
        rw [stringSpan?_close, h]
      by_cases hc : c = '\\'
      · subst hc
        rw [List.cons_append, stringSpan?_escape hq,
          Option.bind_eq_some_iff] at h
        obtain ⟨k, hlength, h⟩ := h
        obtain ⟨m, hm, rfl⟩ := Option.map_eq_some_iff.1 h
        rw [List.drop_append_of_le_length (by omega)] at hm
        have hrest := stringSpan?_of_append hq hm
          (by rw [List.length_drop]; omega)
        rw [stringSpan?_escape hq, escapedLength?_of_append hlength (by omega),
          Option.bind_some, hrest, Option.map_some]
      · rw [List.cons_append, stringSpan?_cons hclose hc] at h
        rw [stringSpan?_cons hclose hc]
        split at h
        · cases h
        · next hbreak =>
            obtain ⟨m, hm, rfl⟩ := Option.map_eq_some_iff.1 h
            rw [if_neg hbreak, stringSpan?_of_append hq hm (by omega),
              Option.map_some]
termination_by l.length

theorem fractionLength_of_append (h : fractionLength (l ++ t) ≤ l.length) :
    fractionLength l = fractionLength (l ++ t) := by
  match l with
  | [] => exact (Nat.le_zero.1 h).symm
  | c :: l =>
      by_cases hc : c = '.'
      · subst hc
        rw [List.cons_append, fractionLength, List.length_cons] at h
        rw [List.cons_append, fractionLength, fractionLength,
          takeWhile_of_append (t := t) (by split at h <;> omega)]
      · have hzero : ∀ rest, fractionLength (c :: rest) = 0 := fun rest => by
          rw [fractionLength.eq_2]
          rintro more he
          cases he
          exact hc rfl
        rw [List.cons_append, hzero, hzero]

theorem unsignedLength_of_append (h : unsignedLength (l ++ t) ≤ l.length) :
    unsignedLength l = unsignedLength (l ++ t) := by
  rw [unsignedLength] at h
  have hwhole := takeWhile_of_append (p := Char.isDigit) (l := l) (t := t)
    (by omega)
  have hle : (l.takeWhile Char.isDigit).length ≤ l.length :=
    (List.takeWhile_prefix _).length_le
  rw [← hwhole, List.drop_append_of_le_length hle] at h
  rw [unsignedLength, unsignedLength, ← hwhole,
    List.drop_append_of_le_length hle, fractionLength_of_append]
  rw [List.length_drop]
  omega

theorem numberLength_of_append (h : numberLength (l ++ t) ≤ l.length) :
    numberLength l = numberLength (l ++ t) := by
  cases l with
  | nil => exact (Nat.le_zero.1 h).symm
  | cons c l =>
      rw [List.cons_append, numberLength_eq, List.head?_cons, List.tail_cons,
        List.length_cons] at h
      rw [List.cons_append, numberLength_eq, numberLength_eq, List.head?_cons,
        List.tail_cons, List.head?_cons, List.tail_cons]
      split
      · next hsign =>
          rw [if_pos hsign] at h
          rw [unsignedLength_of_append (t := t) (by split at h <;> omega)]
      · next hsign =>
          rw [if_neg hsign, ← List.cons_append] at h
          exact unsignedLength_of_append h

theorem head?_append_of_some {d : Char} (h : l.head? = some d) :
    (l ++ t).head? = some d := by
  rw [List.head?_append, h, Option.some_or]

/-- A comment that closes before a cut is not changed by it, and neither is one
that never closes. -/
theorem afterComment_of_append (h : t.length ≤ (afterComment (l ++ t)).length) :
    afterComment (l ++ t) = afterComment l ++ t := by
  induction l with
  | nil => exact (afterComment_suffix t).eq_of_length_le h
  | cons c l ih =>
      by_cases hclose : c = '*' ∧ (l ++ t).head? = some '/'
      · obtain ⟨rfl, hclose⟩ := hclose
        obtain ⟨rest, hrest⟩ := List.head?_eq_some_iff.1 hclose
        cases l with
        | nil =>
            rw [List.nil_append] at hrest
            subst hrest
            exact absurd h (Nat.not_le.2 (Nat.lt_succ_self rest.length))
        | cons d l =>
            cases hrest
            rfl
      · have hclose' : ¬ (c = '*' ∧ l.head? = some '/') :=
          mt (And.imp_right head?_append_of_some) hclose
        rw [List.cons_append, afterComment_cons (not_and_or.1 hclose)] at h ⊢
        rw [afterComment_cons (not_and_or.1 hclose')]
        exact ih h

/-- A comment that ends before a cut opens before it, and is as long. -/
theorem commentLength_of_append (hopens : (l ++ t).head? = some '*')
    (hn : (c :: (l ++ t)).length - (afterComment (l ++ t).tail).length ≤
      l.length + 1) :
    l.head? = some '*' ∧
      (c :: (l ++ t)).length - (afterComment (l ++ t).tail).length =
      (c :: l).length - (afterComment l.tail).length := by
  obtain ⟨body, hbody⟩ := List.head?_eq_some_iff.1 hopens
  cases l with
  | nil =>
      rw [List.nil_append] at hbody
      subst hbody
      have hinside := (afterComment_suffix body).length_le
      simp only [List.nil_append, List.tail_cons, List.length_cons,
        List.length_nil] at hn
      omega
  | cons d l =>
      cases hbody
      simp only [List.cons_append, List.tail_cons, List.length_cons,
        List.length_append] at hn ⊢
      rw [afterComment_of_append (by omega), List.length_append]
      exact ⟨rfl, by omega⟩

/-! ## Tokens -/

/-- The first piece of a text is the same when the text is cut behind it. -/
theorem piece?_of_append {token : Option Token}
    (h : piece? (l ++ t) = some (token, n)) (hn : n ≤ l.length) :
    piece? l = some (token, n) := by
  cases l with
  | nil => exact absurd (piece?_pos h) (Nat.not_lt.2 hn)
  | cons c rest =>
      rw [List.cons_append, piece?, ← List.cons_append] at h
      rw [piece?]
      split at h
      · next hspace =>
          cases h
          rw [if_pos hspace, takeWhile_of_append hn]
      next hspace =>
      rw [if_neg hspace]
      split at h
      · next hident =>
          cases h
          rw [identLength_of_append hn, if_pos hident,
            List.take_append_of_le_length hn]
      next hident =>
      rw [not_not] at hident
      rw [identLength_of_append (t := t) (by rw [hident]; exact Nat.zero_le _),
        if_neg (not_not.2 hident)]
      rw [List.length_cons] at hn
      split at h
      · next hhash =>
          cases h
          have hname : nameSpan (rest ++ t) ≤ rest.length := by omega
          rw [nameSpan_of_append hname, if_pos hhash,
            List.take_append_of_le_length hname]
      next hhash =>
      have hhash' : ¬ (c = '#' ∧ nameSpan rest ≠ 0) := by
        rintro ⟨hc, hname⟩
        have hzero : nameSpan (rest ++ t) = 0 :=
          not_not.1 fun hlength => hhash ⟨hc, hlength⟩
        rw [nameSpan_of_append (hzero ▸ Nat.zero_le _)] at hname
        exact hname hzero
      rw [if_neg hhash']
      split at h
      · next hquote =>
          obtain ⟨k, hk, he⟩ := Option.map_eq_some_iff.1 h
          cases he
          have hq : c ≠ '\\' := by rcases hquote with rfl | rfl <;> decide
          rw [if_pos hquote, stringSpan?_of_append hq hk (by omega),
            Option.map_some, List.take_append_of_le_length (by omega)]
      next hquote =>
      rw [if_neg hquote]
      split at h
      · next hnumber =>
          cases h
          rw [numberLength_of_append hn, if_pos hnumber,
            List.take_append_of_le_length hn]
      next hnumber =>
      rw [not_not] at hnumber
      rw [numberLength_of_append (t := t)
        (by rw [hnumber]; exact Nat.zero_le _), if_neg (not_not.2 hnumber)]
      split at h
      · next hcomment =>
          cases h
          obtain ⟨hstar, hlength⟩ := commentLength_of_append hcomment.2 hn
          rw [if_pos ⟨hcomment.1, hstar⟩, List.cons_append, hlength]
      · next hcomment =>
          rw [if_neg (mt (And.imp_right head?_append_of_some) hcomment)]
          exact h

/-- A comma among the tokens of a text cuts the text in two, each with the
tokens on its side. -/
theorem exists_tokens?_cut {cs : List Char} {us vs : List Token}
    (h : tokens? cs = some (us ++ .delim ',' :: vs)) :
    ∃ a b, cs = a ++ ',' :: b ∧ tokens? a = some us ∧ tokens? b = some vs := by
  match cs with
  | [] => simp [tokens?, tokensWithin_nil] at h
  | c :: rest =>
      cases hpiece : piece? (c :: rest) with
      | none =>
          rw [tokens?_of_piece?_none hpiece] at h
          cases h
      | some piece =>
          obtain ⟨token, n⟩ := piece
          have hpos := piece?_pos hpiece
          rw [tokens?_of_piece? hpiece] at h
          obtain ⟨ws, hws, he⟩ := Option.map_eq_some_iff.1 h
          -- The comma is the first piece, or it is cut at in what follows the
          -- first piece.
          have hlater : ∀ us', us = token.toList ++ us' →
              ws = us' ++ .delim ',' :: vs → ∃ a b, c :: rest = a ++ ',' :: b ∧
              tokens? a = some us ∧ tokens? b = some vs := by
            rintro us' rfl rfl
            obtain ⟨a, b, hcut, ha, hb⟩ := exists_tokens?_cut hws
            have hwhole : c :: rest = (c :: rest).take n ++ a ++ ',' :: b := by
              rw [List.append_assoc, ← hcut, List.take_append_drop]
            have hlength : ((c :: rest).take n).length = n := by
              have hleft : 0 < ((c :: rest).drop n).length := by
                rw [hcut, List.length_append, List.length_cons]
                omega
              rw [List.length_drop] at hleft
              rw [List.length_take]
              omega
            have hfirst : piece? ((c :: rest).take n ++ a) =
                some (token, n) := by
              rw [hwhole] at hpiece
              refine piece?_of_append hpiece ?_
              rw [List.length_append, hlength]
              exact Nat.le_add_right _ _
            refine ⟨_, b, hwhole, ?_, hb⟩
            rw [tokens?_of_piece? hfirst, List.drop_left' hlength, ha,
              Option.map_some]
          cases token with
          | none => exact hlater us rfl he
          | some token =>
              cases us with
              | nil =>
                  injection he with htoken hrest
                  subst htoken
                  subst hrest
                  obtain ⟨rfl, rest', he⟩ := eq_cons_of_piece?_delim hpiece
                  cases he
                  exact ⟨[], rest, rfl, rfl, hws⟩
              | cons u us =>
                  injection he with htoken hrest
                  subst htoken
                  exact hlater us rfl hrest
termination_by cs.length
decreasing_by
  rw [List.length_drop, List.length_cons]
  omega

end SheetBinding.Selector
