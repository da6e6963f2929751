import SheetBinding.Proofs.Selector.Cuts

/-!
# Selectors joined between tokens

What was cut between two tokens can be joined again, if the first of the two
texts has come to its end: an open comment at the end of a text takes in all
that is put behind it, and an escape takes in some of it. A comma or a blank
tells whether that is so, for neither goes on from any token. If the tokens of a
text with one of them behind it are those of the text and its own
(`ClosedBefore`), then so are those of the text with anything behind it that
begins in the same way (`tokens?_append`).

That is shown scanner by scanner. A scanner that stopped in front of the divider
when nothing followed it stops there whatever follows.
-/

namespace SheetBinding.Selector

open Text

variable {c d q : Char} {l : List Char} {n : Nat}

/-! ## Dividers -/

/-- A character that no token goes on with: a comma or a blank. -/
def Divides (c : Char) : Prop :=
  c = ',' ∨ isSpace c = true

/-- The characters that divide, one by one. -/
def dividers : List Char :=
  [',', ' ', '\t', '\x0c', '\r', '\n']

theorem divides_iff : Divides c ↔ c ∈ dividers := by
  simp [dividers, Divides, isSpace, isGap, or_assoc]

namespace Divides

theorem ne (h : Divides c) (hd : ¬ Divides d) : c ≠ d := by
  rintro rfl
  exact hd h

theorem eq_false {p : Char → Bool} (h : Divides c)
    (hall : dividers.all (fun c => !p c) = true) : p c = false := by
  simpa using List.all_eq_true.1 hall c (divides_iff.1 h)

theorem continuesName_eq_false (h : Divides c) : continuesName c = false :=
  h.eq_false (by decide)

theorem isHex_eq_false (h : Divides c) : isHex c = false :=
  h.eq_false (by decide)

theorem isDigit_eq_false (h : Divides c) : c.isDigit = false :=
  h.eq_false (by decide)

end Divides

theorem not_divides_of_not_mem
    (h : c ∉ dividers) : ¬ Divides c :=
  mt divides_iff.1 h

theorem head?_append_cons (l : List Char) (c : Char) (t : List Char) :
    (l ++ c :: t).head? = (l ++ [c]).head? := by
  cases l <;> rfl

theorem takeWhile_append_cons {p : Char → Bool} (h : p c = false)
    (t : List Char) : (l ++ c :: t).takeWhile p = l.takeWhile p := by
  have hstop : (c :: t).takeWhile p = [] :=
    List.takeWhile_cons_of_neg (by simp [h])
  rw [List.takeWhile_append, hstop, List.append_nil]
  split
  · next hall => exact ((List.takeWhile_prefix p).eq_of_length hall).symm
  · rfl

/-- A run that stops before the last character of a text stops there whatever
is put behind the text. -/
theorem takeWhile_of_stops {p : Char → Bool}
    (h : ((l ++ [c]).takeWhile p).length ≤ l.length) (t : List Char) :
    (l ++ c :: t).takeWhile p = (l ++ [c]).takeWhile p := by
  by_cases hc : p c = true
  · rw [List.takeWhile_append] at h ⊢
    split at h
    · next hall =>
        rw [List.takeWhile_cons_of_pos hc, List.length_append,
          List.length_cons] at h
        omega
    · next hsome => rw [if_neg hsome, List.takeWhile_append, if_neg hsome]
  · rw [Bool.not_eq_true] at hc
    rw [takeWhile_append_cons hc, takeWhile_append_cons hc]

/-! ## Escapes -/

theorem codeDigits_append_cons (h : Divides c) (t : List Char) :
    codeDigits (l ++ c :: t) = codeDigits l := by
  rw [codeDigits_eq_takeWhile, codeDigits_eq_takeWhile,
    takeWhile_append_cons h.isHex_eq_false]

theorem gapLength_of_stops (h : gapLength (l ++ [c]) ≤ l.length)
    (t : List Char) : gapLength (l ++ c :: t) = gapLength (l ++ [c]) := by
  cases l with
  | nil =>
      have hreturn : c ≠ '\r' := by
        rintro rfl
        exact absurd h (by decide)
      show gapLength (c :: t) = gapLength [c]
      rw [gapLength_cons (unpaired_of_ne hreturn t),
        gapLength_cons (unpaired_of_ne hreturn [])]
  | cons d l =>
      rw [List.cons_append, List.cons_append]
      by_cases hpair : Unpaired d (l ++ [c])
      · have hpair' : Unpaired d (l ++ c :: t) := by
          rwa [Unpaired, head?_append_cons]
        rw [gapLength_cons hpair, gapLength_cons hpair']
      · obtain ⟨rfl, rest, hrest⟩ := exists_of_not_unpaired hpair
        have hhead := head?_append_cons l c t
        rw [hrest] at hhead
        obtain ⟨rest', hrest'⟩ := List.head?_eq_some_iff.1 hhead
        rw [hrest, hrest']
        rfl

/-- An escape that stops before a divider stops there whatever follows. -/
theorem escapeLength?_of_stops (hc : Divides c)
    (h : escapeLength? (l ++ [c]) = some n) (hn : n ≤ l.length)
    (t : List Char) : escapeLength? (l ++ c :: t) = some n := by
  cases l with
  | nil => exact absurd (pos_of_escapeLength? h) (Nat.not_lt.2 hn)
  | cons d l =>
      by_cases hhex : isHex d = true
      · have hdigits := fun t => codeDigits_append_cons (l := d :: l) hc t
        have hfront := (codeDigits_front (d :: l)).length_le
        rw [List.cons_append, escapeLength?_of_isHex hhex, ← List.cons_append,
          hdigits, List.drop_append_of_le_length hfront, Option.some_inj] at h
        rw [List.cons_append, escapeLength?_of_isHex hhex, ← List.cons_append,
          hdigits, List.drop_append_of_le_length hfront, gapLength_of_stops, h]
        rw [List.length_drop]
        omega
      · have hplain := escapeLength?_of_not_isHex (Bool.eq_false_iff.2 hhex)
        rw [List.cons_append, hplain] at h
        rw [List.cons_append, hplain, h]

theorem escapeLength?_append_cons_none
    (h : escapeLength? (l ++ [c]) = none) (t : List Char) :
    escapeLength? (l ++ c :: t) = none := by
  obtain ⟨d, rest, hl⟩ : ∃ d rest, l ++ [c] = d :: rest :=
    List.exists_cons_of_ne_nil (by simp)
  obtain ⟨rest', hl'⟩ : ∃ rest', l ++ c :: t = d :: rest' :=
    List.head?_eq_some_iff.1 (by rw [head?_append_cons, hl]; rfl)
  rw [hl] at h
  rw [hl']
  by_cases hhex : isHex d = true
  · rw [escapeLength?_of_isHex hhex] at h
    cases h
  · have hplain := escapeLength?_of_not_isHex (Bool.eq_false_iff.2 hhex)
    rw [hplain] at h
    rw [hplain, h]

theorem escapedLength?_of_stops (hc : Divides c)
    (h : escapedLength? (l ++ [c]) = some n) (hn : n < l.length)
    (t : List Char) : escapedLength? (l ++ c :: t) = some n := by
  cases l with
  | nil => cases hn
  | cons d l =>
      by_cases hpair : Unpaired d (l ++ [c])
      · have hpair' : Unpaired d (l ++ c :: t) := by
          rwa [Unpaired, head?_append_cons]
        rw [List.cons_append, escapedLength?_cons hpair] at h
        rw [List.cons_append, escapedLength?_cons hpair']
        split
        · next hbreak =>
            rw [if_pos hbreak] at h
            exact h
        · next hbreak =>
            rw [if_neg hbreak] at h
            exact escapeLength?_of_stops hc h (Nat.le_of_lt hn) t
      · obtain ⟨rfl, rest, hrest⟩ := exists_of_not_unpaired hpair
        have hhead := head?_append_cons l c t
        rw [hrest] at hhead
        obtain ⟨rest', hrest'⟩ := List.head?_eq_some_iff.1 hhead
        rw [List.cons_append, hrest] at h
        rw [List.cons_append, hrest']
        exact h

/-! ## Names, strings, numbers and comments -/

theorem nameSpan_of_divides (hc : Divides c) (t : List Char) :
    nameSpan (c :: t) = 0 := by
  rw [nameSpan_cons (hc.ne (not_divides_of_not_mem (by decide))),
    hc.continuesName_eq_false, if_neg Bool.false_ne_true]

theorem nameSpan_of_stops (hc : Divides c) {l : List Char}
    (h : nameSpan (l ++ [c]) ≤ l.length) (t : List Char) :
    nameSpan (l ++ c :: t) = nameSpan (l ++ [c]) := by
  match l with
  | [] =>
      exact (nameSpan_of_divides hc t).trans (nameSpan_of_divides hc []).symm
  | d :: rest =>
      by_cases hd : d = '\\'
      · subst hd
        cases hlength : escapeLength? (rest ++ [c]) with
        | none =>
            rw [List.cons_append, List.cons_append,
              nameSpan_escape_none hlength,
              nameSpan_escape_none (escapeLength?_append_cons_none hlength t)]
        | some k =>
            rw [List.cons_append, nameSpan_escape hlength,
              List.length_cons] at h
            have hk : k ≤ rest.length := by omega
            rw [List.drop_append_of_le_length hk] at h
            rw [List.cons_append, List.cons_append, nameSpan_escape hlength,
              nameSpan_escape (escapeLength?_of_stops hc hlength hk t),
              List.drop_append_of_le_length hk,
              List.drop_append_of_le_length hk, nameSpan_of_stops hc]
            rw [List.length_drop]
            omega
      · rw [List.cons_append, nameSpan_cons hd] at h
        rw [List.cons_append, List.cons_append, nameSpan_cons hd,
          nameSpan_cons hd]
        split
        · next hname =>
            rw [if_pos hname, List.length_cons] at h
            rw [nameSpan_of_stops hc (by omega)]
        · rfl
termination_by l.length

theorem startLength_of_stops (hc : Divides c)
    (h : startLength (l ++ [c]) ≤ l.length) (t : List Char) :
    startLength (l ++ c :: t) = startLength (l ++ [c]) := by
  rw [startLength] at h
  rw [startLength, startLength, head?_append_cons]
  split
  · next hstart =>
      rw [if_pos hstart] at h
      exact nameSpan_of_stops hc h t
  · rfl

theorem identLength_of_stops (hc : Divides c)
    (h : identLength (l ++ [c]) ≤ l.length) (t : List Char) :
    identLength (l ++ c :: t) = identLength (l ++ [c]) := by
  by_cases hhyphen : (l ++ [c]).head? = some '-'
  · cases l with
    | nil =>
        have hne := hc.ne (d := '-') (not_divides_of_not_mem (by decide))
        exact absurd (Option.some_inj.1 hhyphen) hne
    | cons d l =>
        cases hhyphen
        rw [List.cons_append, identLength_hyphen, List.length_cons] at h
        have hsame := startLength_of_stops hc (l := l)
          (by split at h <;> omega) t
        rw [List.cons_append, List.cons_append, identLength_hyphen,
          identLength_hyphen, hsame]
  · have hhyphen' : (l ++ c :: t).head? ≠ some '-' := by
      rwa [head?_append_cons]
    rw [identLength_of_ne hhyphen] at h ⊢
    rw [identLength_of_ne hhyphen']
    exact startLength_of_stops hc h t

/-- A string that closes before a divider closes there whatever follows. -/
theorem stringSpan?_of_stops (hc : Divides c) {l : List Char} {n : Nat}
    (hq : q ≠ '\\') (h : stringSpan? q (l ++ [c]) = some n)
    (hn : n < l.length) (t : List Char) :
    stringSpan? q (l ++ c :: t) = some n := by
  match l with
  | [] => cases hn
  | d :: rest =>
      rw [List.length_cons] at hn
      by_cases hclose : d = q
      · subst hclose
        rw [List.cons_append, stringSpan?_close] at h
        rw [List.cons_append, stringSpan?_close, h]
      by_cases hd : d = '\\'
      · subst hd
        rw [List.cons_append, stringSpan?_escape hq,
          Option.bind_eq_some_iff] at h
        obtain ⟨k, hlength, h⟩ := h
        obtain ⟨m, hm, rfl⟩ := Option.map_eq_some_iff.1 h
        have hk : k ≤ rest.length := by omega
        rw [List.drop_append_of_le_length hk] at hm
        have hrest := stringSpan?_of_stops hc hq hm
          (by rw [List.length_drop]; omega) t
        rw [List.cons_append, stringSpan?_escape hq,
          escapedLength?_of_stops hc hlength (by omega) t, Option.bind_some,
          List.drop_append_of_le_length hk, hrest, Option.map_some]
      · rw [List.cons_append, stringSpan?_cons hclose hd] at h
        rw [List.cons_append, stringSpan?_cons hclose hd]
        split at h
        · cases h
        · next hbreak =>
            obtain ⟨m, hm, rfl⟩ := Option.map_eq_some_iff.1 h
            rw [if_neg hbreak, stringSpan?_of_stops hc hq hm (by omega) t,
              Option.map_some]
termination_by l.length

theorem fractionLength_append_cons (hc : Divides c) (t : List Char) :
    fractionLength (l ++ c :: t) = fractionLength l := by
  have hne := hc.ne (d := '.') (not_divides_of_not_mem (by decide))
  have hzero : ∀ {d : Char} {rest : List Char}, d ≠ '.' →
      fractionLength (d :: rest) = 0 := fun hd => by
    rw [fractionLength.eq_2]
    rintro more he
    cases he
    exact hd rfl
  cases l with
  | nil => exact hzero hne
  | cons d l =>
      by_cases hd : d = '.'
      · subst hd
        rw [List.cons_append, fractionLength, fractionLength,
          takeWhile_append_cons hc.isDigit_eq_false]
      · rw [List.cons_append, hzero hd, hzero hd]

theorem unsignedLength_append_cons (hc : Divides c) (t : List Char) :
    unsignedLength (l ++ c :: t) = unsignedLength l := by
  have hle : (l.takeWhile Char.isDigit).length ≤ l.length :=
    (List.takeWhile_prefix _).length_le
  rw [unsignedLength, unsignedLength,
    takeWhile_append_cons hc.isDigit_eq_false,
    List.drop_append_of_le_length hle, fractionLength_append_cons hc]

theorem numberLength_append_cons (hc : Divides c) (t : List Char) :
    numberLength (l ++ c :: t) = numberLength (l ++ [c]) := by
  rw [numberLength_eq, numberLength_eq, head?_append_cons]
  split
  · next hsign =>
      cases l with
      | nil =>
          have hplus := hc.ne (d := '+') (not_divides_of_not_mem (by decide))
          have hminus := hc.ne (d := '-') (not_divides_of_not_mem (by decide))
          simp [hplus, hminus] at hsign
      | cons d l =>
          rw [List.cons_append, List.cons_append, List.tail_cons,
            List.tail_cons, unsignedLength_append_cons hc,
            unsignedLength_append_cons hc]
  · rw [unsignedLength_append_cons hc, unsignedLength_append_cons hc]

/-- A comment that closes before a divider leaves the same of a text, whatever
is behind it. -/
theorem afterComment_of_stops (hc : Divides c)
    (h : 0 < (afterComment (l ++ [c])).length) (t : List Char) :
    afterComment (l ++ c :: t) = afterComment l ++ c :: t := by
  induction l with
  | nil =>
      have hopen : afterComment [c] = [] := afterComment_cons (.inr nofun)
      rw [List.nil_append, hopen] at h
      cases h
  | cons d l ih =>
      by_cases hclose : d = '*' ∧ (l ++ [c]).head? = some '/'
      · obtain ⟨rfl, hclose⟩ := hclose
        cases l with
        | nil =>
            have hne := hc.ne (d := '/') (not_divides_of_not_mem (by decide))
            exact absurd (Option.some_inj.1 hclose) hne
        | cons e l =>
            cases hclose
            rfl
      · have hclose' : ¬ (d = '*' ∧ l.head? = some '/') :=
          mt (And.imp_right head?_append_of_some) hclose
        have hclose'' : ¬ (d = '*' ∧ (l ++ c :: t).head? = some '/') := by
          rwa [head?_append_cons]
        rw [List.cons_append, afterComment_cons (not_and_or.1 hclose)] at h
        rw [List.cons_append, afterComment_cons (not_and_or.1 hclose''),
          afterComment_cons (not_and_or.1 hclose')]
        exact ih h

/-- A comment that ends before a divider is as long whatever follows. -/
theorem commentLength_of_stops (hc : Divides c)
    (hopens : (l ++ [c]).head? = some '*')
    (hn : (d :: (l ++ [c])).length - (afterComment (l ++ [c]).tail).length ≤
      l.length + 1) (t : List Char) :
    (d :: (l ++ c :: t)).length - (afterComment (l ++ c :: t).tail).length =
      (d :: (l ++ [c])).length - (afterComment (l ++ [c]).tail).length := by
  cases l with
  | nil =>
      have hne := hc.ne (d := '*') (not_divides_of_not_mem (by decide))
      exact absurd (Option.some_inj.1 hopens) hne
  | cons e l =>
      simp only [List.cons_append, List.tail_cons, List.length_cons,
        List.length_append, List.length_nil] at hn ⊢
      have hleft : 0 < (afterComment (l ++ [c])).length := by omega
      rw [afterComment_of_stops hc hleft, afterComment_of_stops hc hleft,
        List.length_append, List.length_append, List.length_cons,
        List.length_singleton]
      omega

/-! ## Tokens -/

/-- The first piece of a text with a divider behind it, if it ends before that
divider, is the first piece whatever follows the divider. -/
theorem piece?_of_stops (hc : Divides c) {token : Option Token}
    (h : piece? (l ++ [c]) = some (token, n)) (hn : n ≤ l.length)
    (t : List Char) : piece? (l ++ c :: t) = some (token, n) := by
  cases l with
  | nil => exact absurd (piece?_pos h) (Nat.not_lt.2 hn)
  | cons d rest =>
      have htake : ∀ t, (d :: rest ++ c :: t).take n = (d :: rest).take n :=
        fun t => List.take_append_of_le_length hn
      have htake' : ∀ k t, k ≤ rest.length →
          (rest ++ c :: t).take k = rest.take k :=
        fun k t hk => List.take_append_of_le_length hk
      rw [List.cons_append, piece?, ← List.cons_append] at h
      rw [List.cons_append, piece?, ← List.cons_append]
      split at h
      · next hspace =>
          cases h
          rw [if_pos hspace, takeWhile_of_stops hn]
      next hspace =>
      rw [if_neg hspace]
      split at h
      · next hident =>
          cases h
          rw [identLength_of_stops hc hn, if_pos hident, htake, htake]
      next hident =>
      rw [not_not] at hident
      rw [identLength_of_stops hc (by rw [hident]; exact Nat.zero_le _),
        if_neg (not_not.2 hident)]
      rw [List.length_cons] at hn
      split at h
      · next hhash =>
          cases h
          have hname : nameSpan (rest ++ [c]) ≤ rest.length := by omega
          rw [nameSpan_of_stops hc hname, if_pos hhash, htake' _ _ hname,
            htake' _ _ hname]
      next hhash =>
      have hhash' : ¬ (d = '#' ∧ nameSpan (rest ++ c :: t) ≠ 0) := by
        rintro ⟨hd, hname⟩
        have hzero : nameSpan (rest ++ [c]) = 0 :=
          not_not.1 fun hlength => hhash ⟨hd, hlength⟩
        rw [nameSpan_of_stops hc (hzero ▸ Nat.zero_le _)] at hname
        exact hname hzero
      rw [if_neg hhash']
      split at h
      · next hquote =>
          obtain ⟨k, hk, he⟩ := Option.map_eq_some_iff.1 h
          cases he
          have hq : d ≠ '\\' := by rcases hquote with rfl | rfl <;> decide
          have hinside : k < rest.length := by omega
          rw [if_pos hquote, stringSpan?_of_stops hc hq hk hinside,
            Option.map_some, htake' _ _ hinside.le, htake' _ _ hinside.le]
      next hquote =>
      rw [if_neg hquote]
      split at h
      · next hnumber =>
          cases h
          rw [numberLength_append_cons hc, if_pos hnumber,
            List.take_append_of_le_length hn, List.take_append_of_le_length hn]
      next hnumber =>
      rw [numberLength_append_cons hc, if_neg hnumber]
      split at h
      · next hcomment =>
          cases h
          rw [if_pos ⟨hcomment.1, by rw [head?_append_cons]; exact hcomment.2⟩,
            List.cons_append, List.cons_append,
            commentLength_of_stops hc hcomment.2 hn]
      · next hcomment =>
          rw [if_neg (by rwa [head?_append_cons])]
          exact h

/-- Nothing at the end of a text takes in a character behind it: the tokens of
the text with the character are those of the text and its own. -/
def ClosedBefore (c : Char) (l : List Char) : Prop :=
  ∃ ts us, tokens? l = some ts ∧ tokens? [c] = some us ∧
    tokens? (l ++ [c]) = some (ts ++ us)

/-- A divider is one token. -/
theorem Divides.exists_token (hc : Divides c) :
    ∃ u, tokens? [c] = some [u] ∧
      (u = .blank ∧ isSpace c = true ∨ u = .delim c) := by
  by_cases hspace : isSpace c = true
  · refine ⟨.blank, ?_, .inl ⟨rfl, hspace⟩⟩
    rw [tokens?_of_piece? (piece?_of_isSpace hspace []),
      List.takeWhile_cons_of_pos hspace]
    rfl
  · obtain rfl : c = ',' := hc.resolve_right hspace
    exact ⟨.delim ',', by rfl, .inr rfl⟩

theorem isSpace_of_piece?_blank (h : piece? (d :: l) = some (some .blank, n)) :
    isSpace d = true := by
  by_contra hspace
  rw [piece?, if_neg hspace] at h
  split at h
  · cases h
  split at h
  · cases h
  split at h
  · obtain ⟨inside, -, he⟩ := Option.map_eq_some_iff.1 h
    cases he
  split at h
  · cases h
  split at h
  · cases h
  · cases h

/-- A piece that takes all of a text with a divider behind it takes the divider
for itself, or takes it in. -/
theorem le_of_closedBefore (hc : Divides c) (h : ClosedBefore c (d :: l))
    {token : Option Token}
    (hpiece : piece? (d :: l ++ [c]) = some (token, n)) :
    n ≤ (d :: l).length := by
  refine Nat.not_lt.1 fun hlong => ?_
  obtain ⟨ts, us, hts, hus, hboth⟩ := h
  obtain ⟨u, hu, hkind⟩ := hc.exists_token
  cases hus.symm.trans hu
  have hall : (d :: l ++ [c]).length ≤ n := by
    rw [List.length_append]
    exact hlong
  rw [tokens?_of_piece? hpiece, List.drop_of_length_le hall] at hboth
  have htoken : token.toList ++ [] = ts ++ [u] := Option.some_inj.1 hboth
  cases token with
  | none => simp at htoken
  | some token =>
      obtain ⟨rfl, rfl⟩ : ts = [] ∧ token = u := by
        cases ts <;> simp_all
      rcases hkind with ⟨rfl, -⟩ | rfl
      · have hspace : isSpace d = true := isSpace_of_piece?_blank hpiece
        rw [tokens?_of_piece? (piece?_of_isSpace hspace l)] at hts
        obtain ⟨ts, -, he⟩ := Option.map_eq_some_iff.1 hts
        cases he
      · obtain ⟨rfl, -⟩ := eq_cons_of_piece?_delim hpiece
        rw [List.length_cons] at hlong
        omega

/-- The tokens of a text and of what begins behind it with a divider before
which it is closed are those of both. -/
theorem tokens?_append (hc : Divides c) {l : List Char} (h : ClosedBefore c l)
    (t : List Char) :
    tokens? (l ++ c :: t) =
      (tokens? l).bind fun ts => (tokens? (c :: t)).map (ts ++ ·) := by
  match l with
  | [] =>
      show tokens? (c :: t) = (tokens? (c :: t)).map ([] ++ ·)
      simp
  | d :: rest =>
      cases hpiece : piece? (d :: rest ++ [c]) with
      | none =>
          obtain ⟨ts, us, -, -, hboth⟩ := h
          rw [List.cons_append] at hpiece hboth
          cases (tokens?_of_piece?_none hpiece).symm.trans hboth
      | some piece =>
          obtain ⟨token, n⟩ := piece
          have hn := le_of_closedBefore hc h hpiece
          have hpos := piece?_pos hpiece
          have hcut := piece?_of_append hpiece hn
          have hrest : ClosedBefore c ((d :: rest).drop n) := by
            obtain ⟨ts, us, hts, hus, hboth⟩ := h
            rw [tokens?_of_piece? hcut] at hts
            rw [tokens?_of_piece? hpiece,
              List.drop_append_of_le_length hn] at hboth
            obtain ⟨ts', hts', rfl⟩ := Option.map_eq_some_iff.1 hts
            obtain ⟨vs, hvs, he⟩ := Option.map_eq_some_iff.1 hboth
            rw [List.append_assoc, List.append_right_inj] at he
            exact ⟨ts', us, hts', hus, he ▸ hvs⟩
          rw [tokens?_of_piece? (piece?_of_stops hc hpiece hn t),
            tokens?_of_piece? hcut, List.drop_append_of_le_length hn,
            tokens?_append hc hrest]
          cases tokens? ((d :: rest).drop n) with
          | none => rfl
          | some ts =>
              cases tokens? (c :: t) with
              | none => rfl
              | some us => simp
termination_by l.length
decreasing_by
  rw [List.length_drop, List.length_cons]
  omega

end SheetBinding.Selector
