import SheetBinding.Proofs.Literal.Items
import SheetBinding.Proofs.Text.LineEnds

/-!
# Literals with other line ends

A line end can stand in a literal in two places: inside a quoted or a bare text,
where it is part of the value, and between the items of a list, where it is a
gap. In neither place does its kind decide whether there is a literal. A list
has the same items, unified (`items?_unifyLineEnds`), and since a number holds
no line end, it is too long or not as before (`overlong_unifyLineEnds`). So a
literal can be evaluated just when it can be with its line ends unified.
-/

namespace SheetBinding

open Text

namespace Literal

variable {cs : List Char}

theorem overlong_unifyLineEnds : Overlong (unifyLineEnds cs) ↔ Overlong cs := by
  have hnumber : ∀ {l : List Char}, Overlong l → '\r' ∉ l ∧ '\n' ∉ l := by
    rintro l ⟨negative, ds, hwhole, -⟩
    have hchars := fun c => (whole?_eq_some_iff.1 hwhole).mem_cases (c := c)
    exact ⟨fun h => absurd (hchars _ h) (by decide),
      fun h => absurd (hchars _ h) (by decide)⟩
  rcases unifyLineEnds_cases cs with h | ⟨hreturn, hfeed⟩
  · rw [h]
  · exact iff_of_false (fun h => (hnumber h).2 hfeed) fun h =>
      (hnumber h).1 hreturn

theorem scalar_unified_eq_error_iff {s : String} {e : LiteralError} :
    scalar (unified s) = .error e ↔ scalar s = .error e := by
  rw [scalar, scalar, toList_unified, trim_unifyLineEnds,
    ofTrimmed_eq_error_iff, ofTrimmed_eq_error_iff, overlong_unifyLineEnds]

/-! ## Items of lists -/

theorem IsItem.getLast?_ne {item : List Char} (h : IsItem item) :
    item.getLast? ≠ some '\r' := by
  have hlast : ∃ front c, item = front ++ [c] ∧ isBlank c = false := by
    rcases h with ⟨inner, q, hq, -, rfl⟩ | h
    · exact ⟨q :: inner, q, rfl, Grammar.isBlank_of_isQuote hq⟩
    · exact h.last
  obtain ⟨front, c, rfl, hc⟩ := hlast
  rw [List.getLast?_concat, ne_eq, Option.some_inj]
  rintro rfl
  cases hc

theorem item?_of_isBlank {c : Char} (h : isBlank c = true) (rest : List Char) :
    item? (c :: rest) = none := by
  have hq : isQuote c = false := by
    cases hq : isQuote c with
    | false => rfl
    | true => rw [Grammar.isBlank_of_isQuote hq] at h; cases h
  rw [item?, hq, h, Bool.not_true, Bool.and_false, if_neg Bool.false_ne_true,
    if_neg Bool.false_ne_true]

theorem item?_unifyLineEnds (cs : List Char) :
    item? (unifyLineEnds cs) =
      (item? cs).map fun r => (unifyLineEnds r.1, unifyLineEnds r.2) := by
  cases cs with
  | nil => rfl
  | cons c rest =>
      by_cases hc : c = '\r'
      · subst hc
        obtain ⟨more, hmore⟩ := exists_unifyLineEnds_return rest
        rw [hmore, item?_of_isBlank (by decide), item?_of_isBlank (by decide)]
        rfl
      · have hcons := unifyLineEnds_cons_of_ne hc
        cases hq : isQuote c with
        | true =>
            rw [hcons, item?, if_pos hq, item?, if_pos hq,
              closeQuote?_unifyLineEnds hq]
            have hend : ∀ inner, unifyLineEnds (c :: inner ++ [c]) =
                c :: unifyLineEnds inner ++ [c] := fun inner => by
              rw [List.cons_append, hcons,
                unifyLineEnds_append_cons (ne_feed_of_isQuote hq) hc]
              rfl
            simp only [Option.map_map, Function.comp_def, hend]
        | false =>
            have hread : ∀ l, item? (c :: l) = if isBare c && !isBlank c then
                some (trimEnd ((c :: l).takeWhile isBare), (c :: l).drop
                  (trimEnd ((c :: l).takeWhile isBare)).length) else none :=
              fun l => by rw [item?, hq, if_neg Bool.false_ne_true]
            rw [hcons, hread, hread]
            split
            · next hbare =>
                obtain ⟨hitem, hsplit⟩ :=
                  isItem_of_item? ((hread rest).trans (if_pos hbare))
                rw [← hcons, takeWhile_unifyLineEnds (by decide),
                  trimEnd_unifyLineEnds, Option.map_some, Option.some_inj,
                  Prod.mk.injEq]
                refine ⟨rfl, ?_⟩
                nth_rewrite 2 [hsplit]
                rw [unifyLineEnds_append (.inl hitem.getLast?_ne),
                  List.drop_left]
            · rfl

/-- Rounds to spare change nothing. -/
theorem itemsWithin_of_length_le {rounds more : Nat} {items : List (List Char)}
    (h : itemsWithin rounds cs = some items) (hmore : cs.length ≤ more) :
    itemsWithin more cs = some items := by
  obtain ⟨slot, rest, behind, rfl, hrest, rfl⟩ := exists_of_itemsWithin h
  have hrounds := hrest.length_lt
  rw [List.length_append] at hmore
  exact itemsWithin_text slot hrest (by omega)

theorem itemsWithin_unifyLineEnds (rounds : Nat) (cs : List Char) :
    itemsWithin rounds (unifyLineEnds cs) =
      (itemsWithin rounds cs).map (List.map unifyLineEnds) := by
  induction rounds generalizing cs with
  | zero => rfl
  | succ rounds ih =>
      rw [itemsWithin, itemsWithin, skipGap_unifyLineEnds, item?_unifyLineEnds]
      cases item? (skipGap cs) with
      | none => rfl
      | some r =>
          rw [Option.map_some]
          dsimp only
          rw [skipGap_unifyLineEnds]
          cases skipGap r.2 with
          | nil => rfl
          | cons d ds =>
              by_cases hd : d = '\r'
              · subst hd
                obtain ⟨more, hmore⟩ := exists_unifyLineEnds_return ds
                rw [hmore]
                rfl
              · rw [unifyLineEnds_cons_of_ne hd]
                split
                · next heq =>
                    obtain ⟨rfl, hnil⟩ := List.cons.inj heq
                    rw [unifyLineEnds_eq_nil_iff.1 hnil]
                    rfl
                · next heq =>
                    obtain ⟨rfl, rfl⟩ := List.cons.inj heq
                    show _ = ((itemsWithin rounds ds).map (r.1 :: ·)).map
                      (List.map unifyLineEnds)
                    rw [ih, Option.map_map, Option.map_map]
                    rfl
                · next hclose hcomma =>
                    split
                    · next heq =>
                        cases heq
                        exact absurd rfl hclose
                    · next heq =>
                        cases heq
                        exact absurd rfl (hcomma _)
                    · rfl

theorem items?_of_ne {c : Char} (h : c ≠ '[') (rest : List Char) :
    items? (c :: rest) = none := by
  rw [items?.eq_def]
  split
  · next heq => exact absurd (List.cons.inj heq).1 h
  · rfl

/-- A list has the same items, and a text that is no list is none with unified
line ends. -/
theorem items?_unifyLineEnds (cs : List Char) :
    items? (unifyLineEnds cs) = (items? cs).map (List.map unifyLineEnds) := by
  cases cs with
  | nil => rfl
  | cons c rest =>
      by_cases hc : c = '\r'
      · subst hc
        obtain ⟨more, hmore⟩ := exists_unifyLineEnds_return rest
        rw [hmore, items?_of_ne (by decide), items?_of_ne (by decide)]
        rfl
      · rw [unifyLineEnds_cons_of_ne hc]
        by_cases hopen : c = '['
        · subst hopen
          have hclose : (unifyLineEnds (skipGap rest) == [']']) =
              (skipGap rest == [']']) := by
            rw [Bool.eq_iff_iff, beq_iff_eq, beq_iff_eq]
            exact unifyLineEnds_eq_singleton_iff (by decide) (by decide)
          rw [items?, items?, skipGap_unifyLineEnds, hclose]
          split
          · rfl
          · rw [← itemsWithin_unifyLineEnds]
            refine Option.ext fun items => ⟨fun h => ?_, fun h => ?_⟩
            · exact itemsWithin_of_length_le h (length_unifyLineEnds_le rest)
            · exact itemsWithin_of_length_le h (Nat.le_refl _)
        · rw [items?_of_ne hopen, items?_of_ne hopen]
          rfl

theorem ofItems_unifyLineEnds_eq_error_iff {items : List (List Char)}
    {e : LiteralError} :
    ofItems (items.map unifyLineEnds) = .error e ↔
      ofItems items = .error e := by
  rw [ofItems_eq_error_iff, ofItems_eq_error_iff]
  simp only [List.mem_map, exists_exists_and_eq_and, trim_unifyLineEnds,
    overlong_unifyLineEnds]

end Literal

end SheetBinding
