import SheetBinding.Proofs.Selector.Escapes

/-!
# Line ends in the strings of a selector

Inside a string a line break stands only behind a backslash, and then it joins
two lines, or in an escape (`IsBody`). Joining removes all of the line end,
however it is written, and what comes together never makes a line end that was
not there: after a join there is no line break.
-/

namespace SheetBinding.Selector

open Text

variable {c q : Char} {l front back : List Char}

/-- A text that begins with no line break. -/
def BreakFree (l : List Char) : Prop :=
  l.head?.any isBreak = false

theorem BreakFree.parted (h : BreakFree back) (front : List Char) :
    Parted front back :=
  .inr fun he => by
    rw [BreakFree, he] at h
    cases h

theorem joinLines_nil : joinLines [] = [] := by
  rw [joinLines]

theorem joinLines_cons (h : c ≠ '\\') (l : List Char) :
    joinLines (c :: l) = c :: joinLines l := by
  rw [joinLines]
  · exact fun rest hc _ => h hc
  · exact fun d rest hc _ => h hc

theorem joinLines_backslash (h : BreakFree l) :
    joinLines ('\\' :: l) = '\\' :: joinLines l := by
  cases l with
  | nil => simp only [joinLines]
  | cons c rest =>
      rw [BreakFree, List.head?_cons, Option.any_some] at h
      rw [joinLines, h, if_neg Bool.false_ne_true]
      rintro _ rfl
      cases h

theorem joinLines_append (h : '\\' ∉ front) (l : List Char) :
    joinLines (front ++ l) = front ++ joinLines l := by
  induction front with
  | nil => rfl
  | cons c front ih =>
      rw [List.mem_cons, not_or] at h
      rw [List.cons_append, joinLines_cons (Ne.symm h.1), ih h.2,
        List.cons_append]

/-- A line break as a string may escape it. -/
def IsLine (line : List Char) : Prop :=
  line = ['\r', '\n'] ∨ ∃ b, isBreak b = true ∧ line = [b]

theorem IsLine.unified {line : List Char} (h : IsLine line) :
    IsLine (unifyLineEnds line) := by
  rcases h with rfl | ⟨b, hb, rfl⟩
  · exact .inr ⟨'\n', rfl, rfl⟩
  · exact .inr ⟨_, (unified_of_alike (p := isBreak) (by decide) b).trans hb,
      unifyLineEnds_cons fun _ => by simp⟩

theorem IsLine.joinLines {line : List Char} (h : IsLine line)
    (hl : BreakFree l) :
    joinLines ('\\' :: (line ++ l)) = joinLines l := by
  rcases h with rfl | ⟨b, hb, rfl⟩
  · rw [List.cons_append, List.singleton_append, Selector.joinLines]
  · rw [List.singleton_append, Selector.joinLines, if_pos hb]
    rintro rest - rfl
    cases hl

theorem IsEscape.joinLines (h : IsEscape front) (hl : BreakFree l) :
    joinLines ('\\' :: (front ++ l)) = '\\' :: (front ++ joinLines l) := by
  cases h with
  | @plain c _ line =>
      rw [joinLines_backslash (show BreakFree ([c] ++ l) from line),
        List.singleton_append, List.singleton_append]
      by_cases hc : c = '\\'
      · rw [hc, joinLines_backslash hl]
      · rw [joinLines_cons hc]
  | @code digits gap some _ hex gaps =>
      have hbackslash : '\\' ∉ digits ++ gap := fun hmem => by
        rcases List.mem_append.1 hmem with hmem | hmem
        · cases hex _ hmem
        · cases isSpace_of_mem_gap gaps hmem
      have hfree : BreakFree (digits ++ gap ++ l) := by
        obtain ⟨d, digits, rfl⟩ := List.exists_cons_of_ne_nil some
        refine Bool.eq_false_iff.2 fun hbreak => ?_
        have hd := ne_of_isHex (hex d List.mem_cons_self)
        rcases isBreak_iff.1 hbreak with rfl | rfl | rfl
        · exact hd.2.2 rfl
        · exact hd.2.1 rfl
        · cases hex _ List.mem_cons_self
      rw [joinLines_backslash hfree, joinLines_append hbackslash]

theorem IsEscape.unified (h : IsEscape front) :
    IsEscape (unifyLineEnds front) := by
  cases h with
  | @plain c hex line =>
      have hc : c ≠ '\r' := by
        rintro rfl
        cases line
      rw [unifyLineEnds_cons_of_ne hc]
      exact .plain hex line
  | @code digits gap some few hex gaps =>
      have hdigits : '\r' ∉ digits := fun h => (ne_of_isHex (hex _ h)).2.1 rfl
      rw [unifyLineEnds_append_of_not_mem hdigits]
      refine .code some few hex ?_
      rcases gaps with rfl | rfl | ⟨b, hb, rfl⟩
      · exact .inl rfl
      · exact .inr (.inr ⟨'\n', rfl, rfl⟩)
      · exact .inr (.inr ⟨_, (unified_of_alike (p := isSpace)
          (by decide) b).trans hb, unifyLineEnds_cons fun _ => by simp⟩)

/-- The inside of a string: an escaped line break joins two lines, and there is
no other. -/
inductive IsBody : List Char → Prop where
  | nil : IsBody []
  | plain {c : Char} {l : List Char} (backslash : c ≠ '\\')
      (line : isBreak c = false)
      (rest : IsBody l) : IsBody (c :: l)
  | join {line l : List Char} (breaks : IsLine line) (rest : IsBody l) :
      IsBody ('\\' :: (line ++ l))
  | escape {front l : List Char} (escaped : IsEscape front) (rest : IsBody l) :
      IsBody ('\\' :: (front ++ l))

/-- What a backslash escapes in a string, a line break or a character. -/
theorem IsBody.escaped (h : IsLine front ∨ IsEscape front) (hl : IsBody l) :
    IsBody ('\\' :: (front ++ l)) := by
  rcases h with hline | hescape
  · exact .join hline hl
  · exact .escape hescape hl

namespace IsBody

variable (h : IsBody l)
include h

theorem breakFree : BreakFree l := by
  cases h with
  | nil => rfl
  | plain _ line _ => exact line
  | join => rfl
  | escape => rfl

theorem breakFree_joinLines : BreakFree (joinLines l) := by
  induction h with
  | nil =>
      rw [joinLines_nil]
      rfl
  | plain backslash line _ _ =>
      rw [joinLines_cons backslash]
      exact line
  | join breaks rest ih => rwa [breaks.joinLines rest.breakFree]
  | escape escaped rest ih =>
      rw [escaped.joinLines rest.breakFree]
      rfl

theorem returnsEscaped_joinLines : ReturnsEscaped (joinLines l) := by
  induction h with
  | nil =>
      rw [joinLines_nil]
      exact returnsEscaped_of_not_mem List.not_mem_nil
  | @plain c _ backslash line _ ih =>
      have hc : '\r' ∉ [c] := by
        rw [List.mem_singleton]
        rintro rfl
        cases line
      rw [joinLines_cons backslash]
      exact (returnsEscaped_of_not_mem hc).append ih
  | join breaks rest ih => rwa [breaks.joinLines rest.breakFree]
  | escape escaped rest ih =>
      rw [escaped.joinLines rest.breakFree, ← List.cons_append]
      exact escaped.returnsEscaped.append ih

theorem joinLines_unifyLineEnds :
    joinLines (unifyLineEnds l) = unifyLineEnds (joinLines l) := by
  have hfree : ∀ {l}, BreakFree l → BreakFree (unifyLineEnds l) := fun hl =>
    (any_head?_unifyLineEnds (by decide) _).trans hl
  induction h with
  | nil => rw [joinLines_nil]; exact joinLines_nil
  | @plain c _ backslash line _ ih =>
      have hc : c ≠ '\r' := by
        rintro rfl
        cases line
      rw [unifyLineEnds_cons_of_ne hc, joinLines_cons backslash,
        joinLines_cons backslash, unifyLineEnds_cons_of_ne hc, ih]
  | join breaks rest ih =>
      rw [unifyLineEnds_cons_of_ne (by decide),
        unifyLineEnds_append (rest.breakFree.parted _),
        breaks.unified.joinLines (hfree rest.breakFree),
        breaks.joinLines rest.breakFree, ih]
  | escape escaped rest ih =>
      rw [unifyLineEnds_cons_of_ne (by decide),
        unifyLineEnds_append (rest.breakFree.parted _),
        escaped.unified.joinLines (hfree rest.breakFree),
        escaped.joinLines rest.breakFree,
        ih, unifyLineEnds_cons_of_ne (by decide),
        unifyLineEnds_append (rest.breakFree_joinLines.parted _)]

theorem undoEscapes_joinLines :
    undoEscapes (joinLines (unifyLineEnds l)) = undoEscapes (joinLines l) := by
  rw [undoEscapes, undoEscapes, h.joinLines_unifyLineEnds,
    undoCodes_unifyLineEnds h.returnsEscaped_joinLines (Nat.le_refl _)
    (Nat.le_refl _)]

end IsBody

/-- An escaped line break is the whole of a line end. -/
theorem escapedLength?_unifyLineEnds (l : List Char) :
    (escapedLength? l = none ∧ escapedLength? (unifyLineEnds l) = none) ∨
      ∃ front back, l = front ++ back ∧ Parted front back ∧
        (IsLine front ∨ IsEscape front) ∧
        escapedLength? l = some front.length ∧
        escapedLength? (unifyLineEnds l) =
          some (unifyLineEnds front).length := by
  have hbreak : ∀ {c : Char} {l : List Char}, isBreak c = true →
      Unpaired c l → escapedLength? (c :: l) = some 1 := fun hc h => by
    rw [escapedLength?_cons h, if_pos hc]
  cases l with
  | nil => exact .inl ⟨rfl, rfl⟩
  | cons c rest =>
      by_cases hpair : Unpaired c rest
      · by_cases hc : isBreak c = true
        · have hparted : Parted [c] rest := by
            by_cases hreturn : c = '\r'
            · exact .inr (hpair hreturn)
            · exact parted_of_not_mem (by simpa using Ne.symm hreturn) rest
          refine .inr ⟨[c], rest, rfl, hparted, .inl (.inr ⟨c, hc, rfl⟩),
            hbreak hc hpair, ?_⟩
          rw [unifyLineEnds_cons hpair, unifyLineEnds_cons fun _ => by simp]
          refine hbreak
            ((unified_of_alike (p := isBreak) (by decide) c).trans hc) ?_
          apply unpaired_of_ne
          split
          · decide
          · next h => exact fun he => h (beq_iff_eq.2 he)
        · have hreturn : c ≠ '\r' := by
            rintro rfl
            exact hc rfl
          have hescape := escapeLength?_unifyLineEnds (c :: rest)
          rw [unifyLineEnds_cons_of_ne hreturn] at hescape ⊢
          rw [escapedLength?_cons hpair,
            escapedLength?_cons (unpaired_of_ne hreturn _), if_neg hc,
            if_neg hc]
          refine hescape.imp_right ?_
          rintro ⟨front, back, hl, hparted, hfront, hlengths⟩
          exact ⟨front, back, hl, hparted, .inr hfront, hlengths⟩
      · obtain ⟨rfl, rest, rfl⟩ := exists_of_not_unpaired hpair
        refine .inr ⟨['\r', '\n'], rest, rfl, .inl (by simp),
          .inl (.inl rfl), rfl, ?_⟩
        rw [unifyLineEnds_pair, unifyLineEnds_cons_of_ne (by decide)]
        exact hbreak (by decide) (unpaired_of_ne (by decide) _)

/-- A string closes at the same quote. -/
theorem stringSpan?_unifyLineEnds (hreturn : q ≠ '\r') (hfeed : q ≠ '\n')
    (hbackslash : q ≠ '\\') (l : List Char) :
    (stringSpan? q l = none ∧ stringSpan? q (unifyLineEnds l) = none) ∨
      ∃ front back, l = front ++ q :: back ∧ IsBody front ∧
        stringSpan? q l = some front.length ∧
        stringSpan? q (unifyLineEnds l) =
          some (unifyLineEnds front).length := by
  cases l with
  | nil => exact .inl ⟨rfl, rfl⟩
  | cons c rest =>
      by_cases hc : c = '\r'
      · subst hc
        obtain ⟨rest', he⟩ := exists_unifyLineEnds_return rest
        refine .inl ⟨?_, ?_⟩
        · rw [stringSpan?_cons hreturn.symm (by decide), if_pos (by decide)]
        · rw [he, stringSpan?_cons hfeed.symm (by decide), if_pos (by decide)]
      rw [unifyLineEnds_cons_of_ne hc]
      by_cases hq : c = q
      · rw [hq, stringSpan?_close, stringSpan?_close]
        exact .inr ⟨[], rest, rfl, .nil, rfl, rfl⟩
      by_cases hescape : c = '\\'
      · subst hescape
        rw [stringSpan?_escape hbackslash, stringSpan?_escape hbackslash]
        rcases escapedLength?_unifyLineEnds rest with
          ⟨hnone, hnone'⟩ | ⟨front, back, rfl, hparted, hfront, hlength,
            hlength'⟩
        · rw [hnone, hnone']
          exact .inl ⟨rfl, rfl⟩
        rw [hlength, hlength', unifyLineEnds_append hparted, Option.bind_some,
          Option.bind_some, List.drop_left, List.drop_left]
        rcases stringSpan?_unifyLineEnds hreturn hfeed hbackslash back with
          ⟨hnone, hnone'⟩ | ⟨mid, back, rfl, hmid, hlength, hlength'⟩
        · rw [hnone, hnone']
          exact .inl ⟨rfl, rfl⟩
        · refine .inr ⟨'\\' :: (front ++ mid), back, ?_,
            IsBody.escaped hfront hmid, ?_, ?_⟩
          · rw [List.cons_append, List.append_assoc]
          · rw [hlength, Option.map_some, List.length_cons, List.length_append,
              Nat.add_right_comm]
          · rw [hlength', Option.map_some, unifyLineEnds_cons_of_ne (by decide),
              unifyLineEnds_append (hmid.breakFree.parted _), List.length_cons,
              List.length_append, Nat.add_right_comm]
      · rw [stringSpan?_cons hq hescape, stringSpan?_cons hq hescape]
        by_cases hbreak : isBreak c = true
        · rw [if_pos hbreak, if_pos hbreak]
          exact .inl ⟨rfl, rfl⟩
        rw [if_neg hbreak, if_neg hbreak]
        rcases stringSpan?_unifyLineEnds hreturn hfeed hbackslash rest with
          ⟨hnone, hnone'⟩ | ⟨mid, back, rfl, hmid, hlength, hlength'⟩
        · rw [hnone, hnone']
          exact .inl ⟨rfl, rfl⟩
        · refine .inr ⟨c :: mid, back, rfl,
            .plain hescape (Bool.eq_false_iff.2 hbreak) hmid, ?_, ?_⟩
          · rw [hlength, Option.map_some, List.length_cons, Nat.add_comm]
          · rw [hlength', Option.map_some, unifyLineEnds_cons_of_ne hc,
              List.length_cons, Nat.add_comm]
termination_by l.length
decreasing_by
  · subst_vars
    rw [List.length_cons, List.length_append]
    omega
  · rw [List.length_cons]
    omega

end SheetBinding.Selector
