import SheetBinding.Proofs.Selector.Strings
import SheetBinding.Selector

/-!
# Selectors with other line ends

Between the tokens of a selector a line end is a blank, and no token begins or
ends inside one. So each scanner takes the same piece of a text with its line
ends unified, the text has the same tokens (`tokens?_unifyLineEnds`), and a
selector spells the same group however its lines end.
-/

namespace SheetBinding.Selector

open Text

variable {c : Char} {l : List Char} {n r r' : Nat}

/-! ## Names -/

theorem nameSpan_unifyLineEnds (l : List Char) :
    SamePiece l (nameSpan l) (nameSpan (unifyLineEnds l)) := by
  cases l with
  | nil => exact samePiece_zero []
  | cons c rest =>
      by_cases hreturn : c = '\r'
      · subst hreturn
        obtain ⟨rest', he⟩ := exists_unifyLineEnds_return rest
        rw [he, nameSpan_cons (by decide), nameSpan_cons (by decide),
          if_neg (by decide), if_neg (by decide)]
        exact samePiece_zero _
      rw [unifyLineEnds_cons_of_ne hreturn]
      by_cases hescape : c = '\\'
      · subst hescape
        rcases escapeLength?_unifyLineEnds rest with
          ⟨hnone, hnone'⟩ | ⟨front, back, rfl, hparted, hfront, hlength,
            hlength'⟩
        · rw [nameSpan_escape_none hnone, nameSpan_escape_none hnone']
          exact samePiece_zero _
        · rw [nameSpan_escape hlength, nameSpan_escape hlength', List.drop_left,
            unifyLineEnds_append hparted, List.drop_left]
          refine (hfront.samePiece hparted).append ?_
          rw [List.drop_succ_cons, List.drop_left]
          exact nameSpan_unifyLineEnds back
      · rw [nameSpan_cons hescape, nameSpan_cons hescape]
        split
        · exact (samePiece_one hreturn rest).append
            (nameSpan_unifyLineEnds rest)
        · exact samePiece_zero _
termination_by l.length
decreasing_by
  · subst_vars
    rw [List.length_cons, List.length_append]
    omega
  · rw [List.length_cons]
    omega

theorem startLength_unifyLineEnds (l : List Char) :
    SamePiece l (startLength l) (startLength (unifyLineEnds l)) := by
  rw [startLength, startLength, any_head?_unifyLineEnds (by decide)]
  split
  · exact nameSpan_unifyLineEnds l
  · exact samePiece_zero l

theorem identLength_unifyLineEnds (l : List Char) :
    SamePiece l (identLength l) (identLength (unifyLineEnds l)) := by
  have hhead : (unifyLineEnds l).head? = some '-' ↔ l.head? = some '-' :=
    head?_unifyLineEnds_eq_some_iff (by decide) (by decide)
  by_cases h : l.head? = some '-'
  · obtain ⟨rest, rfl⟩ := List.head?_eq_some_iff.1 h
    have hrest := startLength_unifyLineEnds rest
    rw [unifyLineEnds_cons_of_ne (by decide), identLength_hyphen,
      identLength_hyphen, if_congr hrest.eq_zero_iff rfl rfl]
    split
    · exact samePiece_zero _
    · exact (samePiece_one (by decide) rest).append hrest
  · rw [identLength_of_ne h, identLength_of_ne (hhead.not.2 h)]
    exact startLength_unifyLineEnds l

/-! ## Numbers and comments -/

theorem not_mem_takeWhile_isDigit (l : List Char) :
    '\r' ∉ l.takeWhile Char.isDigit :=
  fun h => nomatch (List.mem_takeWhile_imp h : Char.isDigit '\r' = true)

theorem takeWhile_isDigit_unifyLineEnds (l : List Char) :
    (unifyLineEnds l).takeWhile Char.isDigit = l.takeWhile Char.isDigit := by
  rw [takeWhile_unifyLineEnds (by decide),
    unifyLineEnds_eq_self_iff.2 (not_mem_takeWhile_isDigit l)]

theorem fractionLength_unifyLineEnds (l : List Char) :
    fractionLength (unifyLineEnds l) = fractionLength l ∧
      '\r' ∉ l.take (fractionLength l) := by
  have hnone : ∀ {l : List Char}, l.head? ≠ some '.' → fractionLength l = 0 :=
    fun {l} h => by
    rw [fractionLength.eq_def]
    split
    · exact absurd rfl h
    · rfl
  by_cases hpoint : l.head? = some '.'
  · obtain ⟨more, rfl⟩ := List.head?_eq_some_iff.1 hpoint
    rw [unifyLineEnds_cons_of_ne (by decide), fractionLength, fractionLength,
      takeWhile_isDigit_unifyLineEnds]
    refine ⟨rfl, ?_⟩
    split
    · rw [List.take_zero]
      exact List.not_mem_nil
    · rw [Nat.add_comm, List.take_succ_cons, List.mem_cons, not_or,
        ← List.prefix_iff_eq_take.1 (List.takeWhile_prefix _)]
      exact ⟨by decide, not_mem_takeWhile_isDigit more⟩
  · rw [hnone hpoint, hnone
      ((head?_unifyLineEnds_eq_some_iff (by decide) (by decide)).not.2 hpoint)]
    exact ⟨rfl, by rw [List.take_zero]; exact List.not_mem_nil⟩

theorem unsignedLength_unifyLineEnds (l : List Char) :
    unsignedLength (unifyLineEnds l) = unsignedLength l ∧
      '\r' ∉ l.take (unsignedLength l) := by
  have hdigits : '\r' ∉ l.take (l.takeWhile Char.isDigit).length := by
    rw [← List.prefix_iff_eq_take.1 (List.takeWhile_prefix _)]
    exact not_mem_takeWhile_isDigit l
  have hfraction := fractionLength_unifyLineEnds
    (l.drop (l.takeWhile Char.isDigit).length)
  rw [unsignedLength, unsignedLength, takeWhile_isDigit_unifyLineEnds,
    drop_unifyLineEnds hdigits, hfraction.1, List.take_add,
    List.mem_append, not_or]
  exact ⟨rfl, hdigits, hfraction.2⟩

/-- A number holds no line end. -/
theorem numberLength_unifyLineEnds (l : List Char) :
    numberLength (unifyLineEnds l) = numberLength l ∧
      '\r' ∉ l.take (numberLength l) := by
  have hhead : ∀ {c : Char}, c ≠ '\r' → c ≠ '\n' →
      ((unifyLineEnds l).head? = some c ↔ l.head? = some c) :=
    head?_unifyLineEnds_eq_some_iff
  rw [numberLength_eq, numberLength_eq, if_congr (or_congr
    (hhead (by decide) (by decide)) (hhead (by decide) (by decide))) rfl rfl]
  split
  · next h =>
      obtain ⟨c, rest, rfl, hc⟩ : ∃ c rest, l = c :: rest ∧ c ≠ '\r' := by
        rcases h with h | h <;> obtain ⟨rest, rfl⟩ := List.head?_eq_some_iff.1 h
        · exact ⟨'+', rest, rfl, by decide⟩
        · exact ⟨'-', rest, rfl, by decide⟩
      rw [unifyLineEnds_cons_of_ne hc, List.tail_cons, List.tail_cons,
        (unsignedLength_unifyLineEnds rest).1]
      refine ⟨rfl, ?_⟩
      split
      · rw [List.take_zero]
        exact List.not_mem_nil
      · rw [Nat.add_comm, List.take_succ_cons, List.mem_cons, not_or]
        exact ⟨hc.symm, (unsignedLength_unifyLineEnds rest).2⟩
  · exact unsignedLength_unifyLineEnds l

/-- A comment ends at the same place. -/
theorem afterComment_unifyLineEnds (l : List Char) :
    afterComment (unifyLineEnds l) = unifyLineEnds (afterComment l) := by
  induction l using lineEnds_induction with
  | nil => rfl
  | pair l ih =>
      rw [unifyLineEnds_pair, ih,
        afterComment_cons (c := '\r') (.inl (by decide))]
  | cons c l h ih =>
      rw [unifyLineEnds_cons h]
      by_cases hend : c = '*' ∧ l.head? = some '/'
      · obtain ⟨rfl, hslash⟩ := hend
        obtain ⟨rest, rfl⟩ := List.head?_eq_some_iff.1 hslash
        rw [if_neg (by decide), unifyLineEnds_cons_of_ne (by decide),
          afterComment, afterComment]
      · have hend' : (if c == '\r' then '\n' else c) ≠ '*' ∨
            (unifyLineEnds l).head? ≠ some '/' := by
          rw [not_and_or] at hend
          refine hend.imp (fun hc => ?_)
            (head?_unifyLineEnds_eq_some_iff (by decide) (by decide)).not.2
          split
          · decide
          · exact hc
        rw [afterComment_cons hend', ih, afterComment_cons (not_and_or.1 hend)]

/-! ## Tokens -/

/-- The piece at the front of a text is the same, and so is what it leaves. -/
theorem piece?_unifyLineEnds (l : List Char) :
    (piece? l = none ∧ piece? (unifyLineEnds l) = none) ∨
      ∃ token n m, piece? l = some (token, n) ∧
      piece? (unifyLineEnds l) = some (token, m) ∧
      (unifyLineEnds l).drop m = unifyLineEnds (l.drop n) := by
  cases l with
  | nil => exact .inl ⟨rfl, rfl⟩
  | cons c rest =>
      by_cases hspace : isSpace c = true
      · have hhead := any_head?_unifyLineEnds (p := isSpace) (by decide)
          (c :: rest)
        have hdrop := dropWhile_unifyLineEnds (p := isSpace) (by decide)
          (c :: rest)
        cases hunified : unifyLineEnds (c :: rest) with
        | nil => cases unifyLineEnds_eq_nil_iff.1 hunified
        | cons d tail =>
            rw [hunified, List.head?_cons, List.head?_cons, Option.any_some,
              Option.any_some, hspace] at hhead
            refine .inr ⟨_, _, _, piece?_of_isSpace hspace rest,
              piece?_of_isSpace hhead tail, ?_⟩
            rw [drop_length_takeWhile, drop_length_takeWhile, ← hunified, hdrop]
      have hc : c ≠ '\r' := by
        rintro rfl
        exact hspace rfl
      have hfeed : c ≠ '\n' := by
        rintro rfl
        exact hspace rfl
      have hcons := unifyLineEnds_cons_of_ne hc rest
      have hident := identLength_unifyLineEnds (c :: rest)
      have hhash := nameSpan_unifyLineEnds rest
      have hnumber := numberLength_unifyLineEnds (c :: rest)
      have hstar := head?_unifyLineEnds_eq_some_iff (c := '*') (l := rest)
        (by decide) (by decide)
      rw [hcons, piece?, piece?, if_neg hspace, if_neg hspace, ← hcons,
        hident.undoEscapes, hhash.undoEscapes, hnumber.1,
        take_unifyLineEnds hnumber.2]
      simp only [ne_eq, hident.eq_zero_iff, hhash.eq_zero_iff, hstar]
      split
      · exact .inr ⟨_, _, _, rfl, rfl, hident.drop⟩
      split
      · refine .inr ⟨_, _, _, rfl, rfl, ?_⟩
        rw [hcons, Nat.add_comm, List.drop_succ_cons, hhash.drop, Nat.add_comm,
          List.drop_succ_cons]
      split
      · next hquote =>
        have hbackslash : c ≠ '\\' := by
          rintro rfl
          rcases hquote with h | h <;> cases h
        rcases stringSpan?_unifyLineEnds hc hfeed hbackslash rest with
          ⟨hnone, hnone'⟩ | ⟨front, back, rfl, hfront, hlength, hlength'⟩
        · rw [hnone, hnone']
          exact .inl ⟨rfl, rfl⟩
        · rw [hlength, hlength', unifyLineEnds_append_cons hfeed hc,
            Option.map_some, Option.map_some, List.take_left, List.take_left,
            hfront.undoEscapes_joinLines]
          refine .inr ⟨_, _, _, rfl, rfl, ?_⟩
          rw [hcons, unifyLineEnds_append_cons hfeed hc, List.drop_succ_cons,
            List.drop_succ_cons, ← List.drop_drop, ← List.drop_drop,
            List.drop_left, List.drop_left, List.drop_one, List.drop_one,
            List.tail_cons, List.tail_cons]
      split
      · exact .inr ⟨_, _, _, rfl, rfl, drop_unifyLineEnds hnumber.2⟩
      split
      · next hcomment =>
          refine .inr ⟨_, _, _, rfl, rfl, ?_⟩
          obtain ⟨body, rfl⟩ := List.head?_eq_some_iff.1 hcomment.2
          rw [hcons, drop_comment, drop_comment,
            unifyLineEnds_cons_of_ne (by decide), List.tail_cons,
            List.tail_cons, afterComment_unifyLineEnds]
      · refine .inr ⟨_, _, _, rfl, rfl, ?_⟩
        rw [hcons, List.drop_one, List.drop_one, List.tail_cons, List.tail_cons]

theorem tokens?_unifyLineEnds (l : List Char) :
    tokens? (unifyLineEnds l) = tokens? l := by
  cases l with
  | nil => rfl
  | cons c rest =>
      rcases piece?_unifyLineEnds (c :: rest) with
        ⟨hnone, hnone'⟩ | ⟨token, n, m, hpiece, hpiece', hdrop⟩
      · cases hunified : unifyLineEnds (c :: rest) with
        | nil => cases unifyLineEnds_eq_nil_iff.1 hunified
        | cons d tail =>
            rw [hunified] at hnone'
            rw [tokens?_of_piece?_none hnone, tokens?_of_piece?_none hnone']
      · have hn := piece?_pos hpiece
        rw [tokens?_of_piece? hpiece, tokens?_of_piece? hpiece', hdrop,
          tokens?_unifyLineEnds ((c :: rest).drop n)]
termination_by l.length
decreasing_by
  rw [List.length_drop, List.length_cons]
  omega

theorem read?_unifyLineEnds (l : List Char) :
    read? (unifyLineEnds l) = read? l := by
  rw [read?, tokens?_unifyLineEnds, read?]

end SheetBinding.Selector
