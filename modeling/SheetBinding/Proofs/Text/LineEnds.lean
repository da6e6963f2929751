import SheetBinding.Grammar.Position
import SheetBinding.Proofs.Grammar.Stopping
import SheetBinding.Text.Encoding

/-!
# Line ends

A line ends in a line feed, in a carriage return, or in the two of them
together, and to unify line ends is to write a line feed for each. A carriage
return and a line feed are blanks, gaps and no part of any name, so nothing that
splits a text by such classes of characters can tell them apart, and it splits
the unified text in the same places. The one thing to look after is that a split
never comes between the two characters of one line end; it does not where the
second part begins with something else than a line feed
(`unifyLineEnds_append`).

Counted in lines and columns, a place is the same in the unified text unless a
carriage return with no line feed behind it stands before the place, since that
is a line end only after it has been unified
(`Position.after_unifyLineEnds_iff`).
-/

namespace SheetBinding

open Text

namespace Text

/-- A text with its line ends unified. -/
def unified (s : String) : String :=
  String.ofList (unifyLineEnds s.toList)

/-- A character that is not the first half of a line end together with what
follows it. -/
def Unpaired (c : Char) (l : List Char) : Prop :=
  c = '\r' → l.head? ≠ some '\n'

variable {c : Char} {l rest : List Char}

theorem toList_unified (s : String) :
    (unified s).toList = unifyLineEnds s.toList := by
  rw [unified, String.toList_ofList]

theorem unpaired_of_ne (h : c ≠ '\r') (l : List Char) : Unpaired c l :=
  fun hc => absurd hc h

theorem Unpaired.of_append {front : List Char} (h : Unpaired c (front ++ l)) :
    Unpaired c front := by
  intro hc hfront
  refine h hc ?_
  rw [List.head?_append, hfront, Option.some_or]

theorem exists_of_not_unpaired (h : ¬ Unpaired c l) :
    c = '\r' ∧ ∃ rest, l = '\n' :: rest := by
  simp only [Unpaired, ne_eq, Classical.not_imp, not_not] at h
  exact ⟨h.1, List.head?_eq_some_iff.1 h.2⟩

theorem unifyLineEnds_cons (h : Unpaired c l) :
    unifyLineEnds (c :: l) = (if c == '\r' then '\n'
      else c) :: unifyLineEnds l := by
  rw [unifyLineEnds.eq_def]
  split
  · next heq => cases heq
  · next heq =>
      cases heq
      exact absurd rfl (h rfl)
  · next heq =>
      cases heq
      rfl

theorem unifyLineEnds_cons_of_ne (h : c ≠ '\r') (l : List Char) :
    unifyLineEnds (c :: l) = c :: unifyLineEnds l := by
  rw [unifyLineEnds_cons (unpaired_of_ne h l), if_neg (by simpa using h)]

/-- A carriage return before a line feed counts for nothing. -/
theorem unifyLineEnds_pair (l : List Char) :
    unifyLineEnds ('\r' :: '\n' :: l) = unifyLineEnds ('\n' :: l) := by
  rw [unifyLineEnds_cons_of_ne (c := '\n') (by decide)]
  rfl

theorem exists_unifyLineEnds_return (l : List Char) :
    ∃ rest, unifyLineEnds ('\r' :: l) = '\n' :: rest := by
  by_cases h : Unpaired '\r' l
  · exact ⟨unifyLineEnds l, unifyLineEnds_cons h⟩
  · obtain ⟨-, rest, rfl⟩ := exists_of_not_unpaired h
    rw [unifyLineEnds_pair, unifyLineEnds_cons_of_ne (by decide)]
    exact ⟨_, rfl⟩

/-- Induction over a text, a line end of two characters being taken down to its
line feed. -/
theorem lineEnds_induction {motive : List Char → Prop} (nil : motive [])
    (pair : ∀ l, motive ('\n' :: l) → motive ('\r' :: '\n' :: l))
    (cons : ∀ c l, Unpaired c l → motive l → motive (c :: l)) (l : List Char) :
      motive l := by
  induction l with
  | nil => exact nil
  | cons c rest ih =>
      by_cases h : Unpaired c rest
      · exact cons c rest h ih
      · obtain ⟨rfl, l, rfl⟩ := exists_of_not_unpaired h
        exact pair l ih

theorem not_mem_unifyLineEnds (l : List Char) : '\r' ∉ unifyLineEnds l := by
  induction l using lineEnds_induction with
  | nil => exact List.not_mem_nil
  | pair l ih =>
      rw [unifyLineEnds_pair]
      exact ih
  | cons c l h ih =>
      rw [unifyLineEnds_cons h, List.mem_cons, not_or]
      refine ⟨?_, ih⟩
      split
      · decide
      · next hc => exact fun he => hc (beq_iff_eq.2 he.symm)

theorem unifyLineEnds_eq_self_iff : unifyLineEnds l = l ↔ '\r' ∉ l := by
  constructor
  · intro h
    rw [← h]
    exact not_mem_unifyLineEnds l
  · intro h
    induction l with
    | nil => rfl
    | cons c rest ih =>
        rw [List.mem_cons, not_or] at h
        rw [unifyLineEnds_cons_of_ne (Ne.symm h.1), ih h.2]

theorem unified_eq_self_iff {s : String} : unified s = s ↔ '\r' ∉ s.toList := by
  rw [← unifyLineEnds_eq_self_iff, ← toList_unified, String.toList_inj]

/-- A line end is split only between a carriage return and a line feed. -/
theorem unifyLineEnds_append {front : List Char}
    (h : front.getLast? ≠ some '\r' ∨ l.head? ≠ some '\n') :
    unifyLineEnds (front ++ l) = unifyLineEnds front ++ unifyLineEnds l := by
  induction front using lineEnds_induction with
  | nil => rfl
  | pair front ih =>
      rw [List.getLast?_cons_cons] at h
      rw [unifyLineEnds_pair, ← ih h, List.cons_append, List.cons_append,
        unifyLineEnds_pair]
  | cons c front hc ih =>
      have hunpaired : Unpaired c (front ++ l) := by
        rintro rfl
        rw [List.head?_append]
        cases front with
        | nil => exact h.resolve_left (by simp)
        | cons d front => exact hc rfl
      have hrest : front.getLast? ≠ some '\r' ∨ l.head? ≠ some '\n' := by
        cases front with
        | nil => exact .inl (by simp)
        | cons d front => rwa [List.getLast?_cons_cons] at h
      rw [List.cons_append, unifyLineEnds_cons hunpaired, unifyLineEnds_cons hc,
        ih hrest]
      rfl

theorem unifyLineEnds_append_cons {d : Char} (hd : d ≠ '\n') (hd' : d ≠ '\r')
    (front rest : List Char) :
    unifyLineEnds (front ++ d :: rest) =
      unifyLineEnds front ++ d :: unifyLineEnds rest := by
  rw [unifyLineEnds_append (.inr (by simpa using hd)),
    unifyLineEnds_cons_of_ne hd']

theorem length_unifyLineEnds_le (l : List Char) :
    (unifyLineEnds l).length ≤ l.length := by
  induction l using lineEnds_induction with
  | nil => exact Nat.le_refl _
  | pair l ih =>
      rw [unifyLineEnds_pair, List.length_cons]
      omega
  | cons c l h ih =>
      rw [unifyLineEnds_cons h, List.length_cons, List.length_cons]
      omega

/-- Unifying changes nothing, or there is a carriage return that leaves a line
feed. -/
theorem unifyLineEnds_cases (l : List Char) :
    unifyLineEnds l = l ∨ '\r' ∈ l ∧ '\n' ∈ unifyLineEnds l := by
  by_cases h : '\r' ∈ l
  · refine .inr ⟨h, ?_⟩
    induction l using lineEnds_induction with
    | nil => cases h
    | pair l ih =>
        rw [unifyLineEnds_pair, unifyLineEnds_cons_of_ne (by decide)]
        exact List.mem_cons_self
    | cons c l hc ih =>
        rw [unifyLineEnds_cons hc]
        rcases List.mem_cons.1 h with rfl | h
        · exact List.mem_cons_self
        · exact List.mem_cons_of_mem _ (ih h)
  · exact .inl (unifyLineEnds_eq_self_iff.2 h)

theorem isEmpty_unifyLineEnds (l : List Char) :
    (unifyLineEnds l).isEmpty = l.isEmpty := by
  induction l using lineEnds_induction with
  | nil => rfl
  | pair l ih =>
      rw [unifyLineEnds_pair, ih]
      rfl
  | cons c l h _ =>
      rw [unifyLineEnds_cons h]
      rfl

theorem unifyLineEnds_eq_nil_iff : unifyLineEnds l = [] ↔ l = [] := by
  rw [← List.isEmpty_iff, isEmpty_unifyLineEnds, List.isEmpty_iff]

theorem unifyLineEnds_eq_singleton_iff (hreturn : c ≠ '\r') (hfeed : c ≠ '\n') :
    unifyLineEnds l = [c] ↔ l = [c] := by
  cases l with
  | nil => exact iff_of_false (by simp [unifyLineEnds]) (by simp)
  | cons d ds =>
      by_cases hd : d = '\r'
      · subst hd
        obtain ⟨rest, hrest⟩ := exists_unifyLineEnds_return ds
        rw [hrest]
        exact iff_of_false (fun h => hfeed (List.cons.inj h).1.symm)
          fun h => hreturn (List.cons.inj h).1.symm
      · rw [unifyLineEnds_cons_of_ne hd, List.cons.injEq, List.cons.injEq,
          unifyLineEnds_eq_nil_iff]

theorem head?_unifyLineEnds (l : List Char) :
    (unifyLineEnds l).head? = l.head?.map fun c => if c == '\r' then '\n'
      else c := by
  cases l with
  | nil => rfl
  | cons c rest =>
      by_cases h : Unpaired c rest
      · rw [unifyLineEnds_cons h]
        rfl
      · obtain ⟨rfl, rest, rfl⟩ := exists_of_not_unpaired h
        rw [unifyLineEnds_pair, unifyLineEnds_cons_of_ne (by decide)]
        rfl

theorem head?_unifyLineEnds_eq_some_iff (hreturn : c ≠ '\r')
    (hfeed : c ≠ '\n') :
    (unifyLineEnds l).head? = some c ↔ l.head? = some c := by
  rw [head?_unifyLineEnds, Option.map_eq_some_iff]
  constructor
  · rintro ⟨d, hd, he⟩
    split at he
    · exact absurd he.symm hfeed
    · rwa [← he]
  · intro h
    exact ⟨c, h, if_neg fun he => hreturn (eq_of_beq he)⟩

/-! ## What cannot tell line ends apart -/

section Predicate

variable {p : Char → Bool} (hp : p '\r' = p '\n')
include hp

theorem unified_of_alike (c : Char) :
    p (if c == '\r' then '\n' else c) = p c := by
  split
  · next h => rw [eq_of_beq h, hp]
  · rfl

theorem all_head?_unifyLineEnds (l : List Char) :
    (unifyLineEnds l).head?.all p = l.head?.all p := by
  rw [head?_unifyLineEnds, Option.all_map]
  exact congrArg (l.head?.all ·) (funext (unified_of_alike hp))

theorem any_head?_unifyLineEnds (l : List Char) :
    (unifyLineEnds l).head?.any p = l.head?.any p := by
  rw [head?_unifyLineEnds, Option.any_map]
  exact congrArg (l.head?.any ·) (funext (unified_of_alike hp))

theorem takeWhile_unifyLineEnds (l : List Char) :
    (unifyLineEnds l).takeWhile p = unifyLineEnds (l.takeWhile p) := by
  induction l using lineEnds_induction with
  | nil => rfl
  | pair l ih =>
      rw [unifyLineEnds_pair, ih]
      cases hfeed : p '\n' with
      | false =>
          simp only [List.takeWhile_cons, hp, hfeed, if_neg Bool.false_ne_true]
      | true =>
          simp only [List.takeWhile_cons, hp, hfeed, if_pos, unifyLineEnds_pair]
  | cons c l h ih =>
      rw [unifyLineEnds_cons h, List.takeWhile_cons, unified_of_alike hp, ih,
        List.takeWhile_cons]
      split
      · have hunpaired : Unpaired c (l.takeWhile p) :=
          Unpaired.of_append (l := l.dropWhile p)
            (by rwa [List.takeWhile_append_dropWhile])
        rw [unifyLineEnds_cons hunpaired]
      · rfl

theorem dropWhile_unifyLineEnds (l : List Char) :
    (unifyLineEnds l).dropWhile p = unifyLineEnds (l.dropWhile p) := by
  induction l using lineEnds_induction with
  | nil => rfl
  | pair l ih =>
      rw [unifyLineEnds_pair, ih]
      cases hfeed : p '\n' with
      | false =>
          simp only [List.dropWhile_cons, hp, hfeed, if_neg Bool.false_ne_true,
            unifyLineEnds_pair]
      | true => simp only [List.dropWhile_cons, hp, hfeed, if_pos]
  | cons c l h ih =>
      rw [unifyLineEnds_cons h, List.dropWhile_cons, unified_of_alike hp, ih,
        List.dropWhile_cons]
      split
      · rfl
      · rw [unifyLineEnds_cons h]

end Predicate

theorem skipGap_unifyLineEnds (l : List Char) :
    skipGap (unifyLineEnds l) = unifyLineEnds (skipGap l) :=
  dropWhile_unifyLineEnds (by decide) l

theorem trimEnd_unifyLineEnds (l : List Char) :
    trimEnd (unifyLineEnds l) = unifyLineEnds (trimEnd l) := by
  induction l using lineEnds_induction with
  | nil => rfl
  | pair l ih =>
      rw [unifyLineEnds_pair, ih, trimEnd_cons '\r', trimEnd_cons '\n']
      split
      · rfl
      · exact (unifyLineEnds_pair _).symm
  | cons c l h ih =>
      have hunpaired : Unpaired c (trimEnd l) := by
        obtain ⟨w, -, hl⟩ := exists_trimEnd l
        rw [hl] at h
        exact h.of_append
      rw [unifyLineEnds_cons h, trimEnd_cons, ih, isEmpty_unifyLineEnds,
        unified_of_alike (p := isBlank) (by decide), trimEnd_cons]
      split
      · rfl
      · rw [unifyLineEnds_cons hunpaired]

theorem trim_unifyLineEnds (l : List Char) :
    trim (unifyLineEnds l) = unifyLineEnds (trim l) := by
  rw [trim, trimStart, dropWhile_unifyLineEnds (by decide),
    trimEnd_unifyLineEnds]
  rfl

theorem trimmed_unified (s : String) :
    trimmed (unified s) = unified (trimmed s) := by
  rw [trimmed, toList_unified, trim_unifyLineEnds, unified, trimmed,
    String.toList_ofList]

theorem ne_return_of_isQuote {q : Char} (h : isQuote q = true) : q ≠ '\r' := by
  rintro rfl
  cases h

theorem ne_feed_of_isQuote {q : Char} (h : isQuote q = true) : q ≠ '\n' := by
  rintro rfl
  cases h

theorem closeQuote?_cons_of_isBlank {q c : Char} (hq : isQuote q = true)
    (hc : isBlank c = true) (l : List Char) :
    closeQuote? q (c :: l) = (closeQuote? q l).map fun r =>
      (c :: r.1, r.2) := by
  have hbackslash : c ≠ '\\' := by
    rintro rfl
    cases hc
  have hquote : ¬ (c == q) = true := fun he => by
    rw [eq_of_beq he, Grammar.isBlank_of_isQuote hq] at hc
    cases hc
  rw [closeQuote?_cons hbackslash, if_neg hquote]

/-- A quoted stretch closes at the same quote. -/
theorem closeQuote?_unifyLineEnds {q : Char} (hq : isQuote q = true)
    (l : List Char) :
    closeQuote? q (unifyLineEnds l) =
      (closeQuote? q l).map fun r =>
        (unifyLineEnds r.1, unifyLineEnds r.2) := by
  fun_induction closeQuote? q l with
  | case1 => rfl
  | case2 => rfl
  | case3 c rest ih =>
      rw [unifyLineEnds_cons_of_ne (by decide)]
      by_cases h : Unpaired c rest
      · rw [unifyLineEnds_cons h, closeQuote?_escaped, ih]
        cases hrest : closeQuote? q rest with
        | none => rfl
        | some r =>
            rw [eq_of_closeQuote? hrest] at h
            simp only [Option.map_some, unifyLineEnds_cons_of_ne (c := '\\')
              (by decide), unifyLineEnds_cons h.of_append]
      · obtain ⟨rfl, l, rfl⟩ := exists_of_not_unpaired h
        -- The backslash escapes the first half of the line end, and then the
        -- whole of it.
        have hescaped : closeQuote? q ('\\' :: unifyLineEnds ('\n' :: l)) =
            (closeQuote? q (unifyLineEnds ('\n' :: l))).map fun r =>
            ('\\' :: r.1, r.2) := by
          rw [unifyLineEnds_cons_of_ne (by decide), closeQuote?_escaped,
            closeQuote?_cons_of_isBlank hq (by decide), Option.map_map]
          rfl
        rw [unifyLineEnds_pair, hescaped, ih,
          closeQuote?_cons_of_isBlank hq (by decide)]
        simp only [Option.map_map, Function.comp_def, unifyLineEnds_pair,
          unifyLineEnds_cons_of_ne (c := '\\') (by decide)]
  | case4 c rest _ _ hc =>
      obtain rfl := eq_of_beq hc
      rw [unifyLineEnds_cons_of_ne (ne_return_of_isQuote hq),
        closeQuote?_cons (ne_backslash_of_isQuote hq), if_pos hc]
      rfl
  | case5 c rest hlast hnext hc ih =>
      have hne : c ≠ '\\' := by
        rintro rfl
        cases rest with
        | nil => exact hlast rfl rfl
        | cons d ds => exact hnext d ds rfl rfl
      by_cases h : Unpaired c rest
      · have hstep : closeQuote? q (unifyLineEnds (c :: rest)) =
            (closeQuote? q (unifyLineEnds rest)).map
              fun r => ((if c == '\r' then '\n' else c) :: r.1, r.2) := by
          rw [unifyLineEnds_cons h]
          split
          · exact closeQuote?_cons_of_isBlank hq (by decide) _
          · rw [closeQuote?_cons hne, if_neg hc]
        rw [hstep, ih]
        cases hrest : closeQuote? q rest with
        | none => rfl
        | some r =>
            rw [eq_of_closeQuote? hrest] at h
            simp only [Option.map_some, unifyLineEnds_cons h.of_append]
      · obtain ⟨rfl, l, rfl⟩ := exists_of_not_unpaired h
        rw [unifyLineEnds_pair, ih, closeQuote?_cons_of_isBlank hq (by decide)]
        simp only [Option.map_map, Function.comp_def, unifyLineEnds_pair]

end Text

/-! ## Lines and columns -/

namespace Text

/-- The number of carriage returns that have no line feed behind them. -/
def loneReturns : List Char → Nat
  | [] => 0
  | '\r' :: '\n' :: rest => loneReturns rest
  | c :: rest => (if c == '\r' then 1 else 0) + loneReturns rest

variable {c : Char} {l : List Char}

theorem loneReturns_cons (h : Unpaired c l) :
    loneReturns (c :: l) = (if c == '\r' then 1 else 0) + loneReturns l := by
  rw [loneReturns.eq_def]
  split
  · next heq => cases heq
  · next heq =>
      cases heq
      exact absurd rfl (h rfl)
  · next heq =>
      cases heq
      rfl

theorem loneReturns_pair (l : List Char) :
    loneReturns ('\r' :: '\n' :: l) = loneReturns l := rfl

theorem loneReturns_feed (l : List Char) :
    loneReturns ('\n' :: l) = loneReturns l := by
  rw [loneReturns_cons (unpaired_of_ne (by decide) l), if_neg (by decide),
    Nat.zero_add]

/-- Unifying turns the lone carriage returns into line feeds, and makes no
others. -/
theorem count_unifyLineEnds (l : List Char) :
    (unifyLineEnds l).count '\n' = l.count '\n' + loneReturns l := by
  induction l using lineEnds_induction with
  | nil => rfl
  | pair l ih =>
      rw [unifyLineEnds_pair, ih, List.count_cons_of_ne (show '\r' ≠
        '\n' by decide), loneReturns_pair, loneReturns_feed]
  | cons c l h ih =>
      rw [unifyLineEnds_cons h, loneReturns_cons h, List.count_cons,
        List.count_cons, ih]
      by_cases hc : c = '\r'
      · subst hc
        simp
        omega
      · simp [hc]
        omega

end Text

namespace Position

theorem after_cons (c : Char) (l : List Char) :
    after (c :: l) = (after l).behind [c] :=
  after_append [c] l

theorem after_unifyLineEnds_of_eq_zero {l : List Char} (h : loneReturns l = 0) :
    after (unifyLineEnds l) = after l := by
  induction l using lineEnds_induction with
  | nil => rfl
  | pair l ih =>
      rw [loneReturns_pair, ← loneReturns_feed] at h
      rw [unifyLineEnds_pair, ih h, after_cons '\r', eq_comm,
        behind_eq_self_iff]
      refine ⟨by decide, .inr ?_⟩
      rw [after, List.count_cons_self]
      dsimp only
      omega
  | cons c l hc ih =>
      rw [loneReturns_cons hc, Nat.add_eq_zero_iff] at h
      have hne : c ≠ '\r' := by
        rintro rfl
        cases h.1
      rw [unifyLineEnds_cons_of_ne hne, after_cons, ih h.2, after_cons c l]

/-- The place behind a text is the same when its line ends are unified just when
every carriage return in it has a line feed behind it. -/
theorem after_unifyLineEnds_iff {l : List Char} :
    after (unifyLineEnds l) = after l ↔ loneReturns l = 0 := by
  refine ⟨fun h => ?_, after_unifyLineEnds_of_eq_zero⟩
  have hline := congrArg Position.line h
  rw [after, after, count_unifyLineEnds] at hline
  dsimp only at hline
  omega

end Position

end SheetBinding
