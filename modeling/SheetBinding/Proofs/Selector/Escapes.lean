import SheetBinding.Proofs.Selector.Tokens

/-!
# Line ends in the escapes of a selector

A name holds a line end only where it ends the digits of an escaped code point
(`ReturnsEscaped`), and there the escape takes the whole of it, both characters
where there are two. A scanner is followed by how many characters it takes from
a text and how many from the text with its line ends unified: they are the same
piece (`SamePiece`) when no line end is cut, which puts pieces together end to
end, and a piece reads the same once its escapes are undone.
-/

namespace SheetBinding.Selector

open Text

variable {c : Char} {l front back : List Char} {n m n' m' r r' : Nat}

/-! ## Pieces that hold whole line ends -/

/-- No line end is divided between two parts of a text. -/
def Parted (front back : List Char) : Prop :=
  front.getLast? ≠ some '\r' ∨ back.head? ≠ some '\n'

theorem parted_of_not_mem (h : '\r' ∉ front) (back : List Char) :
    Parted front back :=
  .inl fun hlast => h (List.mem_of_getLast? hlast)

theorem Parted.append {mid : List Char} (h : Parted front (mid ++ back))
    (h' : Parted mid back) :
    Parted (front ++ mid) back := by
  cases mid with
  | nil => rwa [List.append_nil]
  | cons d mid =>
      rw [Parted, List.getLast?_append, List.getLast?_cons, Option.some_or,
        ← List.getLast?_cons]
      exact h'

theorem unifyLineEnds_append_of_not_mem (h : '\r' ∉ front) (back : List Char) :
    unifyLineEnds (front ++ back) = front ++ unifyLineEnds back := by
  rw [unifyLineEnds_append (parted_of_not_mem h back),
    unifyLineEnds_eq_self_iff.2 h]

section TakeDrop

variable (h : '\r' ∉ l.take n)
include h

theorem take_append_unifyLineEnds :
    unifyLineEnds l = l.take n ++ unifyLineEnds (l.drop n) := by
  rw [← unifyLineEnds_append_of_not_mem h, List.take_append_drop]

theorem take_unifyLineEnds : (unifyLineEnds l).take n = l.take n := by
  rw [take_append_unifyLineEnds h]
  rcases Nat.le_total n l.length with hn | hn
  · exact List.take_left' (List.length_take_of_le hn)
  · rw [List.drop_of_length_le hn, List.take_of_length_le hn, unifyLineEnds,
      List.append_nil, List.take_of_length_le hn]

theorem drop_unifyLineEnds :
    (unifyLineEnds l).drop n = unifyLineEnds (l.drop n) := by
  rw [take_append_unifyLineEnds h]
  rcases Nat.le_total n l.length with hn | hn
  · exact List.drop_left' (List.length_take_of_le hn)
  · rw [List.drop_of_length_le hn, List.take_of_length_le hn, unifyLineEnds,
      List.append_nil, List.drop_of_length_le hn]

end TakeDrop

/-- Every carriage return of a text stands behind the digits of an escaped code
point. -/
def ReturnsEscaped (l : List Char) : Prop :=
  ∀ front back, l = front ++ '\r' :: back → ∃ before digits,
    front = before ++ '\\' :: digits ∧ digits ≠ [] ∧ digits.length ≤ 6 ∧
      ∀ d ∈ digits, isHex d = true

theorem returnsEscaped_of_not_mem (h : '\r' ∉ l) : ReturnsEscaped l := by
  rintro front back rfl
  exact absurd (List.mem_append_right _ List.mem_cons_self) h

theorem ReturnsEscaped.append (h : ReturnsEscaped front)
    (h' : ReturnsEscaped back) :
    ReturnsEscaped (front ++ back) := by
  intro f b he
  rcases List.append_eq_append_iff.1 he with ⟨mid, rfl, hback⟩ |
    ⟨mid, hfront, hb⟩
  · obtain ⟨before, digits, rfl, hdigits⟩ := h' mid b hback
    exact ⟨front ++ before, digits, by rw [List.append_assoc], hdigits⟩
  · cases mid with
    | nil =>
        obtain ⟨before, digits, he, hdigits⟩ := h' [] b hb.symm
        cases List.append_eq_nil_iff.1 he.symm |>.2
    | cons d mid =>
        cases hb
        exact h f mid hfront

/-- `n` characters at the start of a text are, once its line ends are unified,
`m` characters, and the carriage returns among them are escaped. -/
def SamePiece (l : List Char) (n m : Nat) : Prop :=
  ∃ front back, l = front ++ back ∧ Parted front back ∧ ReturnsEscaped front ∧
    front.length = n ∧ (unifyLineEnds front).length = m

theorem samePiece_of_not_mem (h : '\r' ∉ front) (back : List Char) :
    SamePiece (front ++ back) front.length front.length :=
  ⟨front, back, rfl, parted_of_not_mem h back, returnsEscaped_of_not_mem h, rfl,
    by rw [unifyLineEnds_eq_self_iff.2 h]⟩

theorem samePiece_zero (l : List Char) : SamePiece l 0 0 :=
  samePiece_of_not_mem List.not_mem_nil l

theorem samePiece_one (h : c ≠ '\r') (l : List Char) : SamePiece (c :: l) 1 1 :=
  have hmem : '\r' ∉ [c] := fun hmem => h (List.mem_singleton.1 hmem).symm
  samePiece_of_not_mem hmem l

namespace SamePiece

variable (h : SamePiece l n m)
include h

theorem take : (unifyLineEnds l).take m = unifyLineEnds (l.take n) := by
  obtain ⟨front, back, rfl, hparted, -, rfl, rfl⟩ := h
  rw [unifyLineEnds_append hparted, List.take_left, List.take_left]

theorem drop : (unifyLineEnds l).drop m = unifyLineEnds (l.drop n) := by
  obtain ⟨front, back, rfl, hparted, -, rfl, rfl⟩ := h
  rw [unifyLineEnds_append hparted, List.drop_left, List.drop_left]

theorem eq_zero_iff : m = 0 ↔ n = 0 := by
  obtain ⟨front, back, rfl, -, -, rfl, rfl⟩ := h
  rw [List.length_eq_zero_iff, unifyLineEnds_eq_nil_iff,
    List.length_eq_zero_iff]

theorem append (h' : SamePiece (l.drop n) n' m') :
    SamePiece l (n + n') (m + m') := by
  obtain ⟨front, back, rfl, hparted, hreturns, rfl, rfl⟩ := h
  rw [List.drop_left] at h'
  obtain ⟨mid, back, rfl, hparted', hreturns', rfl, rfl⟩ := h'
  refine ⟨front ++ mid, back, (List.append_assoc ..).symm,
    hparted.append hparted', hreturns.append hreturns', List.length_append, ?_⟩
  have hmid : Parted front mid := by
    cases mid with
    | nil => exact .inr (by simp)
    | cons d mid => exact hparted
  rw [unifyLineEnds_append hmid, List.length_append]

theorem returnsEscaped : ReturnsEscaped (l.take n) := by
  obtain ⟨front, back, rfl, -, hreturns, rfl, -⟩ := h
  rwa [List.take_left]

end SamePiece

/-! ## Escapes -/

theorem not_mem_codeDigits (l : List Char) : '\r' ∉ codeDigits l :=
  fun h => (ne_of_isHex (isHex_of_mem_codeDigits h)).2.1 rfl

theorem codeDigits_unifyLineEnds (l : List Char) :
    codeDigits (unifyLineEnds l) = codeDigits l := by
  have hdigits : '\r' ∉ l.takeWhile isHex :=
    fun h => (ne_of_isHex (List.mem_takeWhile_imp h)).2.1 rfl
  rw [codeDigits_eq_takeWhile, codeDigits_eq_takeWhile,
    takeWhile_unifyLineEnds (by decide), unifyLineEnds_eq_self_iff.2 hdigits]

/-- What ends the digits of a code point: a blank or a line end, or nothing. -/
def IsGap (gap : List Char) : Prop :=
  gap = [] ∨ gap = ['\r', '\n'] ∨ ∃ b, isSpace b = true ∧ gap = [b]

theorem isSpace_of_mem_gap {gap : List Char} (hgap : IsGap gap) (h : c ∈ gap) :
    isSpace c = true := by
  rcases hgap with rfl | rfl | ⟨b, hb, rfl⟩
  · cases h
  · simp only [List.mem_cons, List.not_mem_nil, or_false] at h
    rcases h with rfl | rfl <;> decide
  · rwa [List.mem_singleton.1 h]

/-- What a backslash escapes: a character that is neither a digit nor a line
break, or the digits of a code point and the blank that ends them. -/
inductive IsEscape : List Char → Prop where
  | plain {c : Char} (hex : isHex c = false) (line : isBreak c = false) :
      IsEscape [c]
  | code {digits gap : List Char} (some : digits ≠ []) (few : digits.length ≤ 6)
      (hex : ∀ d ∈ digits, isHex d = true) (gaps : IsGap gap) : IsEscape
        (digits ++ gap)

theorem IsEscape.returnsEscaped (h : IsEscape l) :
    ReturnsEscaped ('\\' :: l) := by
  cases h with
  | plain hex line =>
      refine returnsEscaped_of_not_mem fun hmem => ?_
      simp only [List.mem_cons, List.not_mem_nil, or_false] at hmem
      rcases hmem with h | rfl
      · cases h
      · cases line
  | @code digits gap some few hex gaps =>
      have hdigits : '\r' ∉ '\\' :: digits := by
        rw [List.mem_cons, not_or]
        exact ⟨by decide, fun h => (ne_of_isHex (hex _ h)).2.1 rfl⟩
      rw [← List.cons_append]
      intro f b he
      have hcase : f = '\\' :: digits := by
        rcases List.append_eq_append_iff.1 he with ⟨mid, rfl, hgap⟩ |
          ⟨mid, hfront, hb⟩
        · cases mid with
          | nil => rw [List.append_nil]
          | cons d mid =>
              rcases gaps with rfl | rfl | ⟨g, -, rfl⟩
              · cases hgap
              · simp [List.cons_eq_append_iff] at hgap
              · simp at hgap
        · cases mid with
          | nil => rw [hfront, List.append_nil]
          | cons d mid =>
              cases hb
              exact absurd (hfront ▸ List.mem_append_right _ List.mem_cons_self)
                hdigits
      exact ⟨[], digits, hcase, some, few, hex⟩

/-- The blank behind the digits of a code point. -/
theorem exists_gap (l : List Char) :
    ∃ gap back, l = gap ++ back ∧
      Parted gap back ∧ IsGap gap ∧ gapLength l = gap.length ∧
      gapLength (unifyLineEnds l) = (unifyLineEnds gap).length := by
  cases l with
  | nil => exact ⟨[], [], rfl, .inl (by simp), .inl rfl, rfl, rfl⟩
  | cons b rest =>
      by_cases hpair : Unpaired b rest
      · have hgap : gapLength (unifyLineEnds (b :: rest)) = if isSpace b then 1
            else 0 := by
          have hunpaired : Unpaired (if b == '\r' then '\n'
              else b) (unifyLineEnds rest) := by
            apply unpaired_of_ne
            split
            · decide
            · next h => exact fun he => h (beq_iff_eq.2 he)
          rw [unifyLineEnds_cons hpair, gapLength_cons hunpaired,
            unified_of_alike (p := isSpace) (by decide)]
        rw [gapLength_cons hpair, hgap]
        by_cases hspace : isSpace b = true
        · rw [if_pos hspace]
          refine ⟨[b], rest, rfl, ?_, .inr (.inr ⟨b, hspace, rfl⟩), rfl, ?_⟩
          · by_cases hb : b = '\r'
            · exact .inr (hpair hb)
            · exact parted_of_not_mem (by simpa using Ne.symm hb) rest
          · rw [unifyLineEnds_cons (fun _ => by simp)]
            rfl
        · rw [if_neg hspace]
          exact ⟨[], b :: rest, rfl, .inl (by simp), .inl rfl, rfl, rfl⟩
      · obtain ⟨rfl, rest, rfl⟩ := exists_of_not_unpaired hpair
        refine ⟨['\r', '\n'], rest, rfl, .inl (by simp),
          .inr (.inl rfl), rfl, ?_⟩
        rw [unifyLineEnds_pair, unifyLineEnds_cons_of_ne (by decide),
          gapLength_cons (unpaired_of_ne (by decide) _)]
        rfl

/-- An escape takes the whole of a line end. -/
theorem escapeLength?_unifyLineEnds (l : List Char) :
    (escapeLength? l = none ∧ escapeLength? (unifyLineEnds l) = none) ∨
      ∃ front back, l = front ++ back ∧ Parted front back ∧ IsEscape front ∧
        escapeLength? l = some front.length ∧
        escapeLength? (unifyLineEnds l) =
          some (unifyLineEnds front).length := by
  cases l with
  | nil => exact .inl ⟨rfl, rfl⟩
  | cons c rest =>
      by_cases hhex : isHex c = true
      · obtain ⟨back, hback⟩ := codeDigits_front (c :: rest)
        have hl := hback.symm
        obtain ⟨gap, back, rfl, hparted, hgaps, hgap, hgap'⟩ := exists_gap back
        have hdigits := not_mem_codeDigits (c :: rest)
        have hunified : unifyLineEnds (c :: rest) = c :: unifyLineEnds rest :=
          unifyLineEnds_cons_of_ne (ne_of_isHex hhex).2.1 rest
        have hsome : codeDigits (c :: rest) ≠ [] := by
          rw [codeDigits, List.take_succ_cons, List.takeWhile_cons, if_pos hhex]
          exact List.cons_ne_nil _ _
        refine .inr ⟨codeDigits (c :: rest) ++ gap,
          back, by rw [List.append_assoc, ← hl], (parted_of_not_mem hdigits
          _).append hparted, .code hsome (length_codeDigits_le _) (fun _ =>
          isHex_of_mem_codeDigits) hgaps, ?_, ?_⟩
        · rw [escapeLength?_of_isHex hhex, List.length_append]
          generalize codeDigits (c :: rest) = digits at hl
          rw [hl, List.drop_left, hgap]
        · rw [hunified, escapeLength?_of_isHex hhex, ← hunified,
            codeDigits_unifyLineEnds, unifyLineEnds_append_of_not_mem hdigits,
            List.length_append]
          generalize codeDigits (c :: rest) = digits at hl hdigits
          rw [hl, unifyLineEnds_append_of_not_mem hdigits,
            List.drop_left, hgap']
      · have hplain := escapeLength?_of_not_isHex (Bool.eq_false_iff.2 hhex)
        by_cases hbreak : isBreak c = true
        · refine .inl ⟨by rw [hplain, if_pos hbreak], ?_⟩
          by_cases hc : c = '\r'
          · subst hc
            obtain ⟨rest', he⟩ := exists_unifyLineEnds_return rest
            rw [he]
            rfl
          · rw [unifyLineEnds_cons_of_ne hc, hplain, if_pos hbreak]
        · have hc : c ≠ '\r' := by
            rintro rfl
            exact hbreak rfl
          refine .inr ⟨[c], rest, rfl,
            parted_of_not_mem (by simpa using hc.symm) _,
            .plain (by simpa using hhex) (by simpa using hbreak),
            by rw [hplain, if_neg hbreak]; rfl, ?_⟩
          rw [unifyLineEnds_cons_of_ne hc, unifyLineEnds_cons_of_ne hc, hplain,
            if_neg hbreak]
          rfl

/-- A backslash and what it escapes. -/
theorem IsEscape.samePiece (h : IsEscape front) (hparted : Parted front back) :
    SamePiece ('\\' :: (front ++ back)) (front.length + 1)
      ((unifyLineEnds front).length + 1) := by
  refine ⟨'\\' :: front, back, rfl, ?_, h.returnsEscaped, rfl, ?_⟩
  · exact (show Parted ['\\'] (front ++ back) from .inl (by simp)).append
      hparted
  · rw [unifyLineEnds_cons_of_ne (by decide), List.length_cons]

/-! ## Undoing escapes -/

theorem codeDigits_append {digits : List Char}
    (hex : ∀ d ∈ digits, isHex d = true) (few : digits.length ≤ 6)
    (hc : isHex c = false) (l : List Char) :
    codeDigits (digits ++ c :: l) = digits := by
  rw [codeDigits_eq_takeWhile, List.takeWhile_append_of_pos hex,
    List.takeWhile_cons, hc, if_neg Bool.false_ne_true, List.append_nil,
    List.take_of_length_le few]

theorem gapLength_return (l : List Char) : gapLength ('\r' :: l) ≠ 0 := by
  by_cases h : Unpaired '\r' l
  · rw [gapLength_cons h]
    decide
  · obtain ⟨-, rest, rfl⟩ := exists_of_not_unpaired h
    exact Nat.succ_ne_zero 1

namespace ReturnsEscaped

theorem ne_return (h : ReturnsEscaped (c :: l)) : c ≠ '\r' := by
  rintro rfl
  obtain ⟨before, digits, he, -⟩ := h [] l rfl
  cases List.append_eq_nil_iff.1 he.symm |>.2

/-- What stands behind a character that begins no code point. -/
theorem of_cons (h : ReturnsEscaped (c :: l))
    (hcode : ¬ (c = '\\' ∧ l.head?.any isHex = true)) :
    ReturnsEscaped l := by
  rintro front back rfl
  obtain ⟨before, digits, he, some, few, hex⟩ := h (c :: front) back rfl
  cases before with
  | nil =>
      cases he
      refine absurd ⟨rfl, ?_⟩ hcode
      obtain ⟨d, digits, rfl⟩ := List.exists_cons_of_ne_nil some
      exact hex d List.mem_cons_self
  | cons b before =>
      cases he
      exact ⟨before, digits, rfl, some, few, hex⟩

/-- What stands behind a code point: its own digits escape no return but the one
it ends with. -/
theorem drop_escape (h : ReturnsEscaped ('\\' :: l))
    (hcode : l.head?.any isHex = true) :
    ReturnsEscaped (l.drop ((escapeLength? l).getD 0)) := by
  have hlength : (escapeLength? l).getD 0 =
      (codeDigits l).length + gapLength (l.drop (codeDigits l).length) := by
    cases l with
    | nil => cases hcode
    | cons c rest => rw [escapeLength?_of_isHex hcode, Option.getD_some]
  rw [hlength, ← List.drop_drop]
  have hex : ∀ d ∈ codeDigits l, isHex d = true :=
    fun _ => isHex_of_mem_codeDigits
  obtain ⟨back, hback⟩ := codeDigits_front l
  have hl := hback.symm
  generalize hdigits : codeDigits l = digits at hl hex
  subst hl
  rw [List.drop_left]
  obtain ⟨gap, back, rfl, -, hgaps, hgap, -⟩ := exists_gap back
  rw [hgap, List.drop_left]
  rintro front rest rfl
  obtain ⟨before, ds, he, some, few, hex'⟩ :=
    h ('\\' :: (digits ++ gap ++ front)) rest
      (by simp only [List.cons_append, List.append_assoc])
  cases before with
  | nil =>
      -- One run of digits would hold all that the code point took, and so the
      -- return after it.
      cases he
      have hnil : gap = [] := by
        refine List.eq_nil_iff_forall_not_mem.2 fun b hb => ?_
        have hhex :=
          hex' b (List.mem_append_left _ (List.mem_append_right _ hb))
        rw [not_isHex_of_isSpace (isSpace_of_mem_gap hgaps hb)] at hhex
        cases hhex
      subst hnil
      rw [List.append_nil] at few hex'
      rw [List.nil_append, ← List.append_assoc,
        codeDigits_append hex' few (by decide)] at hdigits
      obtain rfl := List.append_right_eq_self.1 hdigits
      exact absurd hgap (gapLength_return rest)
  | cons b before =>
      rw [List.cons_append, List.cons.injEq] at he
      rcases List.append_eq_append_iff.1 he.2 with ⟨mid, -, rfl⟩ |
        ⟨mid, hfront, hds⟩
      · exact ⟨mid, ds, rfl, some, few, hex'⟩
      · cases mid with
        | nil => exact ⟨[], ds, hds.symm, some, few, hex'⟩
        | cons d mid =>
            cases hds
            have hmem : '\\' ∈ digits ++ gap :=
              hfront ▸ List.mem_append_right _ List.mem_cons_self
            rcases List.mem_append.1 hmem with hmem | hmem
            · cases hex _ hmem
            · cases isSpace_of_mem_gap hgaps hmem

end ReturnsEscaped

theorem undoCodes_nil (r : Nat) : undoCodes r [] = [] := by
  cases r <;> rfl

theorem undoCodes_unifyLineEnds (hreturns : ReturnsEscaped l) (h : l.length ≤ r)
    (h' : (unifyLineEnds l).length ≤ r') : undoCodes r' (unifyLineEnds l) =
      undoCodes r l := by
  induction r generalizing l r' with
  | zero =>
      obtain rfl := List.length_eq_zero_iff.1 (Nat.le_zero.1 h)
      exact undoCodes_nil r'
  | succ r ih =>
      cases l with
      | nil => exact undoCodes_nil r'
      | cons c rest =>
          have hc := hreturns.ne_return
          rw [List.length_cons, Nat.add_le_add_iff_right] at h
          rw [unifyLineEnds_cons_of_ne hc, List.length_cons] at h'
          obtain ⟨r', rfl⟩ : ∃ k, r' = k + 1 := ⟨r' - 1, by omega⟩
          rw [Nat.add_le_add_iff_right] at h'
          rw [unifyLineEnds_cons_of_ne hc, undoCodes, undoCodes,
            any_head?_unifyLineEnds (by decide)]
          split
          · next hcode =>
              rw [Bool.and_eq_true, beq_iff_eq] at hcode
              obtain ⟨rfl, hcode⟩ := hcode
              have hback := hreturns.drop_escape hcode
              dsimp only
              rw [← codeDigits, ← codeDigits, codeDigits_unifyLineEnds]
              congr 1
              rcases escapeLength?_unifyLineEnds rest with
                ⟨hnone, hnone'⟩ | ⟨front, back, rfl, hparted, hfront, hlength,
                  hlength'⟩
              · cases rest with
                | nil => cases hcode
                | cons d rest =>
                    rw [escapeLength?_of_isHex hcode] at hnone
                    cases hnone
              · rw [hlength, Option.getD_some, List.drop_left] at hback
                rw [hlength, hlength', Option.getD_some, Option.getD_some,
                  unifyLineEnds_append hparted, List.drop_left, List.drop_left]
                rw [unifyLineEnds_append hparted, List.length_append] at h'
                rw [List.length_append] at h
                exact ih hback (by omega) (by omega)
          · next hcode =>
              rw [Bool.and_eq_true, beq_iff_eq] at hcode
              rw [ih (hreturns.of_cons hcode) h h']

theorem SamePiece.undoEscapes (h : SamePiece l n m) :
    undoEscapes ((unifyLineEnds l).take m) = undoEscapes (l.take n) := by
  rw [Selector.undoEscapes, Selector.undoEscapes, h.take,
    undoCodes_unifyLineEnds h.returnsEscaped (Nat.le_refl _) (Nat.le_refl _)]

end SheetBinding.Selector
