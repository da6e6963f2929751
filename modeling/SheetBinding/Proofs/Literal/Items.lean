import Mathlib.Data.List.Forall2
import SheetBinding.Proofs.Literal.Kinds
import SheetBinding.Proofs.Result

/-!
# List literals

A list literal is a row of items between square brackets with a comma between
any two of them, and gaps may stand around each item. A bare item may have
blanks inside it, and a gap is made of blanks, so a reader that takes as many
bare characters as there are runs over the gap behind an item too; what brings
it back is that an item does not end in a blank. Blanks that are no gaps are not
let pass outside the items: a text with such a blank there is no list.

`IsList` says what a list literal is without saying how it is read. The commas
and brackets that are not inside quotes cannot belong to an item, so a text is a
list in one way only (`IsList.unique`), and the reader finds that one
(`items?_eq_some_iff`).
-/

namespace SheetBinding

open Text

namespace Literal

/-! ## The texts that are lists -/

/-- A run of bare characters that neither begins nor ends with a blank. -/
structure IsBareItem (cs : List Char) : Prop where
  isBare : ∀ c ∈ cs, isBare c = true
  first : ∃ c rest, cs = c :: rest ∧ isBlank c = false
  last : ∃ front c, cs = front ++ [c] ∧ isBlank c = false

/-- A text is an item of a list: quoted, or bare. -/
def IsItem (cs : List Char) : Prop :=
  (∃ inner, IsQuoted inner cs) ∨ IsBareItem cs

/-- An item of a list with the gaps around it. -/
@[ext]
structure Slot where
  before : List Char
  item : List Char
  after : List Char
  gap_before : Gap before
  isItem : IsItem item
  gap_after : Gap after

/-- An item as it is written, with the gaps around it. -/
def Slot.text (slot : Slot) : List Char :=
  slot.before ++ (slot.item ++ slot.after)

/-- What may follow a slot: the closing bracket, or a comma, a slot and what may
follow that. -/
inductive SlotsBehind : List Slot → List Char → Prop where
  | close : SlotsBehind [] [']']
  | comma (slot : Slot) {rest : List Slot} {cs : List Char} :
      SlotsBehind rest cs →
        SlotsBehind (slot :: rest) (',' :: (slot.text ++ cs))

/-- The texts of a list with these slots. -/
inductive IsList : List Slot → List Char → Prop where
  | empty {w : List Char} : Gap w → IsList [] ('[' :: (w ++ [']']))
  | items (slot : Slot) {rest : List Slot} {cs : List Char} :
      SlotsBehind rest cs → IsList (slot :: rest) ('[' :: (slot.text ++ cs))

/-! ## One item -/

theorem isBare_of_isGap {c : Char} (h : isGap c = true) : isBare c = true := by
  simp only [isGap, Bool.or_eq_true, beq_iff_eq] at h
  rcases h with (((rfl | rfl) | rfl) | rfl) | rfl <;> decide

theorem isQuote_of_isBare {c : Char} (h : isBare c = true) :
    isQuote c = false := by
  cases hc : isQuote c with
  | false => rfl
  | true => rcases isQuote_iff.1 hc with rfl | rfl <;> cases h

variable {cs item rest : List Char}

theorem IsItem.exists_cons (h : IsItem item) :
    ∃ c more, item = c :: more ∧ isBlank c = false ∧ c ≠ ']' := by
  cases h with
  | inl h =>
      obtain ⟨inner, q, hq, -, rfl⟩ := h
      refine ⟨q, inner ++ [q], rfl, ?_, ?_⟩ <;> rcases isQuote_iff.1
        hq with rfl | rfl <;> decide
  | inr h =>
      obtain ⟨c, more, rfl, hc⟩ := h.first
      refine ⟨c, more, rfl, hc, ?_⟩
      rintro rfl
      cases h.isBare ']' (List.mem_cons_self ..)

theorem IsBareItem.trim_eq (h : IsBareItem item) : trim item = item :=
  trim_of_ends h.first h.last

theorem IsItem.trim_eq (h : IsItem item) : trim item = item := by
  cases h with
  | inl h =>
      obtain ⟨inner, q, hq, -, rfl⟩ := h
      have hblank : isBlank q = false := by
        rcases isQuote_iff.1 hq with rfl | rfl <;> decide
      exact trim_of_ends ⟨q, _, rfl, hblank⟩ ⟨q :: inner, q, rfl, hblank⟩
  | inr h => exact h.trim_eq

/-- A run of bare characters is an item once it is trimmed at the end. -/
theorem isBareItem_trimEnd {run : List Char} (hrun : ∀ d ∈ run, isBare d = true)
    (hfirst : ∃ c more, run = c :: more ∧ isBlank c = false) : IsBareItem
      (trimEnd run) := by
  obtain ⟨w, -, hw⟩ := exists_trimEnd run
  have hend := trimEnd_trimEnd run
  have hcons : ∃ c more, trimEnd run = c :: more ∧ isBlank c = false := by
    obtain ⟨c, more, rfl, hc⟩ := hfirst
    exact ⟨c, _, trimEnd_append_cons hc [] more, hc⟩
  have hne : trimEnd run ≠ [] := by
    obtain ⟨c, more, hrun, -⟩ := hcons
    rw [hrun]
    exact List.cons_ne_nil c more
  refine ⟨fun d hd => hrun d (by rw [hw]; exact List.mem_append_left w hd),
    hcons, ⟨_, _, (List.dropLast_append_getLast hne).symm, ?_⟩⟩
  rw [← List.dropLast_append_getLast hne] at hend
  exact isBlank_of_trimEnd_concat hend

/-- What is read as an item is one. -/
theorem isItem_of_item? (h : item? cs = some (item, rest)) :
    IsItem item ∧ cs = item ++ rest := by
  cases cs with
  | nil => cases h
  | cons c more =>
      rw [item?] at h
      split at h
      · next hq =>
          obtain ⟨⟨inner, after⟩, hclose, he⟩ := Option.map_eq_some_iff.1 h
          cases he
          refine ⟨.inl ⟨inner, c, hq, inner_of_closeQuote? hclose, rfl⟩, ?_⟩
          rw [eq_of_closeQuote? hclose]
          simp
      · split at h
        · next hc =>
            rw [Bool.and_eq_true, Bool.not_eq_true'] at hc
            obtain ⟨rfl, rfl⟩ := Prod.mk.inj (Option.some.inj h)
            have hfirst : (c :: more).takeWhile isBare =
                c :: more.takeWhile isBare := List.takeWhile_cons_of_pos hc.1
            refine ⟨.inr (isBareItem_trimEnd
              (fun d hd => List.mem_takeWhile_imp hd) ⟨c, _, hfirst, hc.2⟩), ?_⟩
            obtain ⟨w, -, hrun⟩ := exists_trimEnd ((c :: more).takeWhile isBare)
            have hcs : c :: more = trimEnd ((c :: more).takeWhile isBare) ++
                (w ++ (c :: more).dropWhile isBare) := by
              rw [← List.append_assoc, ← hrun, List.takeWhile_append_dropWhile]
            exact (List.prefix_iff_eq_append.1 ⟨_, hcs.symm⟩).symm
        · cases h

/-- An item ends where a gap with a comma or a bracket begins. -/
theorem item?_append (h : IsItem item) {w : List Char} (hw : Gap w)
    {stop : Char} (hstop : isBare stop = false) (rest : List Char) :
    item? (item ++ (w ++ stop :: rest)) = some (item, w ++ stop :: rest) := by
  cases h with
  | inl h =>
      obtain ⟨inner, q, hq, hinner, rfl⟩ := h
      rw [List.cons_append, List.append_assoc, List.singleton_append, item?,
        if_pos hq, closeQuote?_append hq hinner]
      rfl
  | inr h =>
      have hrun : (item ++ (w ++ stop :: rest)).takeWhile isBare =
          item ++ w := by
        rw [List.takeWhile_append_of_pos h.isBare,
          List.takeWhile_append_of_pos fun c hc => isBare_of_isGap (hw c hc),
          List.takeWhile_cons_of_neg (by simp [hstop]), List.append_nil]
      have htrim : trimEnd (item ++ w) = item := by
        obtain ⟨front, c, rfl, hc⟩ := h.last
        rw [trimEnd_append_blank fun c hc => isBlank_of_isGap (hw c hc),
          trimEnd_concat hc]
      obtain ⟨c, more, rfl, hc⟩ := h.first
      have hbare := h.isBare c (List.mem_cons_self ..)
      rw [List.cons_append] at hrun ⊢
      rw [item?, if_neg (by simp [isQuote_of_isBare hbare]),
        if_pos (by simp [hbare, hc]), hrun]
      dsimp only
      rw [htrim]
      exact congrArg (fun left => some (c :: more, left)) List.drop_left

/-! ## One slot -/

theorem SlotsBehind.exists_stop {slots : List Slot} (h : SlotsBehind slots cs) :
    ∃ stop more, cs = stop :: more ∧ isBare stop = false ∧
      isGap stop = false := by
  cases h with
  | close => exact ⟨']', [], rfl, by decide, by decide⟩
  | comma slot _ => exact ⟨',', _, rfl, by decide, by decide⟩

theorem Slot.skipGap_text (slot : Slot) (cs : List Char) :
    skipGap (slot.text ++ cs) = slot.item ++ (slot.after ++ cs) := by
  obtain ⟨c, more, hitem, hc, -⟩ := slot.isItem.exists_cons
  rw [Slot.text, List.append_assoc, List.append_assoc,
    skipGap_append slot.gap_before, hitem, List.cons_append,
    skipGap_cons (isGap_of_not_isBlank hc)]

theorem Slot.item?_text (slot : Slot) {slots : List Slot}
    (h : SlotsBehind slots cs) :
    item? (skipGap (slot.text ++ cs)) = some (slot.item, slot.after ++ cs) := by
  obtain ⟨stop, more, rfl, hstop, -⟩ := h.exists_stop
  rw [slot.skipGap_text, item?_append slot.isItem slot.gap_after hstop]

theorem Slot.skipGap_after (slot : Slot) {slots : List Slot}
    (h : SlotsBehind slots cs) :
    skipGap (slot.after ++ cs) = cs := by
  obtain ⟨stop, more, rfl, -, hstop⟩ := h.exists_stop
  rw [skipGap_append slot.gap_after, skipGap_cons hstop]

/-- A slot and what follows it can be told apart in one way only. -/
theorem Slot.text_append_inj {slot slot' : Slot} {slots slots' : List Slot}
    {cs cs' : List Char} (h : SlotsBehind slots cs)
    (h' : SlotsBehind slots' cs') (heq : slot.text ++ cs = slot'.text ++ cs') :
    slot = slot' ∧ cs = cs' := by
  have hread := slot.item?_text h
  rw [heq, slot'.item?_text h', Option.some.injEq, Prod.mk.injEq] at hread
  obtain ⟨hitem, hleft⟩ := hread
  have hcs : cs = cs' := by
    rw [← slot.skipGap_after h, ← hleft, slot'.skipGap_after h']
  subst hcs
  have hafter : slot'.after = slot.after := List.append_cancel_right hleft
  have hbefore : slot.before = slot'.before := by
    rw [Slot.text, Slot.text, hitem, hafter] at heq
    exact List.append_cancel_right (List.append_cancel_right heq)
  exact ⟨Slot.ext hbefore hitem.symm hafter.symm, rfl⟩

/-! ## All slots -/

theorem SlotsBehind.unique {slots slots' : List Slot} (h : SlotsBehind slots cs)
    (h' : SlotsBehind slots' cs) : slots = slots' := by
  induction h generalizing slots' with
  | close =>
      cases h'
      rfl
  | comma slot hrest ih =>
      generalize htext : ',' :: (slot.text ++ _) = text at h'
      cases h' with
      | close => cases htext
      | comma slot' hrest' =>
          obtain ⟨rfl, rfl⟩ := Slot.text_append_inj hrest hrest'
            (List.cons.inj htext).2
          rw [ih hrest']

theorem SlotsBehind.length_lt {slots : List Slot} (h : SlotsBehind slots cs) :
    slots.length < cs.length := by
  induction h with
  | close => decide
  | comma slot _ ih =>
      rw [List.length_cons, List.length_cons, List.length_append]
      omega

/-- A gap with the closing bracket behind it is not the text of a slot. -/
theorem Slot.skipGap_text_ne (slot : Slot) (cs : List Char) :
    skipGap (slot.text ++ cs) ≠ [']'] := by
  obtain ⟨c, more, hitem, -, hc⟩ := slot.isItem.exists_cons
  rw [slot.skipGap_text, hitem]
  rintro h
  exact hc (List.cons.inj h).1

theorem skipGap_close {w : List Char} (hw : Gap w) :
    skipGap (w ++ [']']) = [']'] := by
  rw [skipGap_append hw]
  rfl

/-- No text is a list in two ways. -/
theorem IsList.unique {slots slots' : List Slot} (h : IsList slots cs)
    (h' : IsList slots' cs) :
    slots = slots' := by
  cases h with
  | empty hw =>
      generalize htext : '[' :: (_ ++ [']']) = text at h'
      cases h' with
      | empty _ => rfl
      | items slot _ =>
          have hclose := skipGap_close hw
          rw [(List.cons.inj htext).2] at hclose
          exact absurd hclose (slot.skipGap_text_ne _)
  | items slot hrest =>
      generalize htext : '[' :: (slot.text ++ _) = text at h'
      cases h' with
      | empty hw =>
          have hclose := skipGap_close hw
          rw [← (List.cons.inj htext).2] at hclose
          exact absurd hclose (slot.skipGap_text_ne _)
      | items slot' hrest' =>
          obtain ⟨rfl, rfl⟩ := Slot.text_append_inj hrest hrest'
            (List.cons.inj htext).2
          rw [hrest.unique hrest']

/-- The items that are read are those of the slots, if there are rounds
enough. -/
theorem itemsWithin_text (slot : Slot) {rest : List Slot}
    (h : SlotsBehind rest cs) {rounds : Nat} (hrounds : rest.length < rounds) :
    itemsWithin rounds (slot.text ++ cs) =
      some ((slot :: rest).map Slot.item) := by
  induction h generalizing slot rounds with
  | close =>
      obtain ⟨k, rfl⟩ : ∃ k, rounds = k + 1 := ⟨rounds - 1, by omega⟩
      rw [itemsWithin, slot.item?_text .close]
      dsimp only
      rw [slot.skipGap_after .close]
      rfl
  | @comma next more behind hrest ih =>
      rw [List.length_cons] at hrounds
      obtain ⟨k, rfl⟩ : ∃ k, rounds = k + 1 := ⟨rounds - 1, by omega⟩
      have hmore : itemsWithin k (next.text ++ behind) =
          some ((next :: more).map Slot.item) := ih next (by omega)
      rw [itemsWithin, slot.item?_text (.comma next hrest)]
      dsimp only
      rw [slot.skipGap_after (.comma next hrest)]
      simp only [hmore]
      rfl

theorem exists_of_itemsWithin {rounds : Nat} {items : List (List Char)}
    (h : itemsWithin rounds cs = some items) :
    ∃ (slot : Slot) (rest : List Slot) (behind : List Char),
      items = (slot :: rest).map Slot.item ∧ SlotsBehind rest behind ∧
        cs = slot.text ++ behind := by
  induction rounds generalizing cs items with
  | zero => cases h
  | succ rounds ih =>
      rw [itemsWithin] at h
      split at h
      · cases h
      · next item left hread =>
          obtain ⟨hitem, hskip⟩ := isItem_of_item? hread
          obtain ⟨w, hw, hcs⟩ := exists_gap cs
          obtain ⟨v, hv, hleft⟩ := exists_gap left
          have htext : ∀ behind, skipGap left = behind →
              cs = (Slot.mk w item v hw hitem hv).text ++ behind := by
            rintro behind rfl
            rw [Slot.text, List.append_assoc, List.append_assoc,
              ← hleft, ← hskip]
            exact hcs
          split at h
          · next hclose =>
              cases h
              exact ⟨⟨w, item, v, hw, hitem, hv⟩, [], [']'], rfl, .close,
                htext _ hclose⟩
          · next more hcomma =>
              obtain ⟨others, hothers, rfl⟩ := Option.map_eq_some_iff.1 h
              obtain ⟨slot, rest, behind, rfl, hrest, rfl⟩ := ih hothers
              exact ⟨⟨w, item, v, hw, hitem, hv⟩, slot :: rest, _, rfl,
                .comma slot hrest, htext _ hcomma⟩
          · cases h

/-- The items of a list are read, and of nothing else. -/
theorem items?_eq_some_iff {items : List (List Char)} :
    items? cs = some items ↔ ∃ slots, IsList slots cs ∧
      slots.map Slot.item = items := by
  constructor
  · intro h
    unfold items? at h
    split at h
    · next more =>
        split at h
        · next hclose =>
            cases h
            obtain ⟨w, hw, hmore⟩ := exists_gap more
            rw [eq_of_beq hclose] at hmore
            exact ⟨[], hmore ▸ .empty hw, rfl⟩
        · obtain ⟨slot, rest, behind, rfl, hrest, rfl⟩ :=
            exists_of_itemsWithin h
          exact ⟨slot :: rest, .items slot hrest, rfl⟩
    · cases h
  · rintro ⟨slots, hlist, rfl⟩
    cases hlist with
    | empty hw =>
        rw [items?, skipGap_close hw]
        rfl
    | items slot hrest =>
        have hrounds := hrest.length_lt
        rw [items?, if_neg (by simpa using slot.skipGap_text_ne _),
          itemsWithin_text slot hrest (by rw [List.length_append]; omega)]

/-! ## The values of items -/

theorem ofItems_eq_ok_iff {items : List (List Char)} {values : List Scalar} :
    ofItems items = .ok values ↔
      List.Forall₂ (fun item value => ofTrimmed (trim item) = .ok value) items
        values := by
  induction items generalizing values with
  | nil =>
      rw [ofItems, List.forall₂_nil_left_iff, Except.ok.injEq]
      exact eq_comm
  | cons item rest ih =>
      rw [ofItems, List.forall₂_cons_left_iff]
      cases hitem : ofTrimmed (trim item) with
      | error e => simp
      | ok value =>
          simp only [map_eq_ok_iff, ih, Except.ok.injEq]
          constructor
          · rintro ⟨others, hothers, rfl⟩
            exact ⟨value, others, rfl, hothers, rfl⟩
          · rintro ⟨_, others, rfl, hothers, rfl⟩
            exact ⟨others, hothers, rfl⟩

theorem ofItems_eq_error_iff {items : List (List Char)} {e : LiteralError} :
    ofItems items = .error e ↔
      (∃ item ∈ items, Overlong (trim item)) ∧ e = .itemTooManyDigits := by
  induction items with
  | nil => simp [ofItems]
  | cons item rest ih =>
      rw [ofItems, List.exists_mem_cons_iff]
      cases hitem : ofTrimmed (trim item) with
      | error d =>
          have hlong := (ofTrimmed_eq_error_iff.1 hitem).1
          simp [hlong, eq_comm]
      | ok value =>
          have hshort : ¬ Overlong (trim item) := fun hlong => by
            rw [ofTrimmed_eq_error_iff.2 ⟨hlong, rfl⟩] at hitem
            cases hitem
          simp [hshort, map_eq_error_iff, ih]

/-- A list cannot be evaluated if it is none, or if one of its items is such a
number. -/
theorem list_eq_error_iff {s : String} {e : LiteralError} :
    list s = .error e ↔
      (items? (trim s.toList) = none ∧ e = .notAList (trimmed s)) ∨
      ∃ items, items? (trim s.toList) = some items ∧
        (∃ item ∈ items, Overlong (trim item)) ∧ e = .itemTooManyDigits := by
  rw [list]
  cases items? (trim s.toList) with
  | none => simp [trimmed, eq_comm]
  | some items => simp [ofItems_eq_error_iff]

/-- Between quotes there is no number, whatever is between them. -/
theorem IsItem.isBareItem (h : IsItem item) (hlong : Overlong item) :
    IsBareItem item := by
  cases h with
  | inl h =>
      obtain ⟨inner, hquoted⟩ := h
      obtain ⟨negative, ds, hwhole, -⟩ := hlong
      have hnone := unquote?_of_isWhole (whole?_eq_some_iff.1 hwhole)
      rw [unquote?_of_isQuoted hquoted] at hnone
      cases hnone
  | inr h => exact h

theorem list_eq_ok_iff {s : String} {values : List Scalar} :
    list s = .ok values ↔ ∃ slots, IsList slots (trim s.toList) ∧
      List.Forall₂ (fun (slot : Slot) value => ofTrimmed slot.item =
        .ok value) slots values := by
  have hitems : ∀ slots : List Slot, ofItems (slots.map Slot.item) = .ok
      values ↔ List.Forall₂ (fun (slot : Slot) value => ofTrimmed slot.item =
      .ok value) slots values := by
    intro slots
    rw [ofItems_eq_ok_iff, List.forall₂_map_left_iff]
    simp only [Slot.isItem, IsItem.trim_eq]
  rw [list]
  cases hread : items? (trim s.toList) with
  | none =>
      refine iff_of_false (fun h => by cases h) ?_
      rintro ⟨slots, hlist, -⟩
      rw [items?_eq_some_iff.2 ⟨slots, hlist, rfl⟩] at hread
      cases hread
  | some items =>
      obtain ⟨slots, hlist, rfl⟩ := items?_eq_some_iff.1 hread
      rw [hitems]
      constructor
      · intro h
        exact ⟨slots, hlist, h⟩
      · rintro ⟨slots', hlist', h⟩
        rwa [hlist.unique hlist']

/-- Just the lists are evaluated, item by item. -/
theorem list_by_shape (s : String) :
    ((∃ values, list s = .ok values) ↔
      ∃ slots, IsList slots (trim s.toList) ∧
        ∀ slot ∈ slots, IsBareItem slot.item → ¬ Overlong slot.item) ∧
    (∀ slots slots', IsList slots (trim s.toList) →
      IsList slots' (trim s.toList) →
      slots = slots') ∧
    (∀ slots values, IsList slots (trim s.toList) → list s = .ok values →
      List.Forall₂ (fun (slot : Slot) value =>
        scalar (String.ofList slot.item) = .ok value ∧
        ∀ inner, IsQuoted inner slot.item →
          value = .text (String.ofList (unescape inner)))
        slots values) ∧
    ((∀ slots, ¬ IsList slots (trim s.toList)) →
      list s = .error (.notAList (trimmed s))) := by
  refine ⟨⟨?_, ?_⟩, fun _ _ hlist hlist' => hlist.unique hlist', ?_, ?_⟩
  · rintro ⟨values, h⟩
    obtain ⟨slots, hlist, -⟩ := list_eq_ok_iff.1 h
    refine ⟨slots, hlist, fun slot hslot _ hlong => ?_⟩
    have hfails : list s = .error .itemTooManyDigits :=
      list_eq_error_iff.2 (.inr ⟨_, items?_eq_some_iff.2 ⟨slots, hlist, rfl⟩,
        ⟨slot.item, List.mem_map_of_mem hslot,
        by rwa [slot.isItem.trim_eq]⟩, rfl⟩)
    rw [hfails] at h
    cases h
  · rintro ⟨slots, hlist, hshort⟩
    cases h : list s with
    | ok values => exact ⟨values, rfl⟩
    | error e =>
        rw [list_eq_error_iff, items?_eq_some_iff.2 ⟨slots, hlist, rfl⟩] at h
        obtain ⟨h, -⟩ | ⟨items, hitems, ⟨item, hmem, hlong⟩, -⟩ := h
        · cases h
        · cases hitems
          obtain ⟨slot, hslot, rfl⟩ := List.mem_map.1 hmem
          rw [slot.isItem.trim_eq] at hlong
          exact absurd hlong (hshort slot hslot (slot.isItem.isBareItem hlong))
  · intro slots values hlist h
    obtain ⟨slots', hlist', hvalues⟩ := list_eq_ok_iff.1 h
    obtain rfl := hlist.unique hlist'
    refine hvalues.imp fun slot value hvalue => ⟨?_, fun inner hquoted => ?_⟩
    · rw [scalar, String.toList_ofList, slot.isItem.trim_eq, hvalue]
    · rw [ofTrimmed_of_isQuoted hquoted] at hvalue
      exact (Except.ok.inj hvalue).symm
  · intro hnone
    rw [list_eq_error_iff]
    refine .inl ⟨Option.eq_none_iff_forall_ne_some.2 fun items hitems => ?_,
      rfl⟩
    obtain ⟨slots, hlist, -⟩ := items?_eq_some_iff.1 hitems
    exact hnone slots hlist

/-- A quoted number with a comma in it, and a bare item with a blank in it and
gaps around it. -/
theorem list_by_shape_quoted :
    list "['1,2' ,\t7 8\n]" = .ok [.text "1,2", .text "7 8"] := by
  have hquoted : IsQuoted "1,2".toList "'1,2'".toList :=
    ⟨'\'', by decide, inner_escape '\'' "1,2".toList, by decide⟩
  have hnotBare : ¬ IsBareItem "'1,2'".toList := fun h => by
    cases h.isBare '\'' (by decide)
  have hbare : IsBareItem "7 8".toList :=
    ⟨List.all_eq_true.1 (by decide), ⟨'7', _, rfl, by decide⟩,
      ⟨['7', ' '], '8', by decide, by decide⟩⟩
  have hlist : IsList
      [⟨[], _, [' '], by decide, .inl ⟨_, hquoted⟩, by decide⟩,
        ⟨['\t'], _, ['\n'], by decide, .inr hbare, by decide⟩]
      (trim "['1,2' ,\t7 8\n]".toList) :=
    .items _ (.comma _ .close)
  have hshort : ¬ Overlong "7 8".toList := by
    rintro ⟨negative, ds, hwhole, -⟩
    cases hwhole
  obtain ⟨hok, -, hitems, -⟩ := list_by_shape "['1,2' ,\t7 8\n]"
  obtain ⟨values, hvalues⟩ := hok.2 ⟨_, hlist, List.forall_mem_cons.2
    ⟨fun h => absurd h hnotBare, List.forall_mem_singleton.2 fun _ => hshort⟩⟩
  rw [hvalues]
  rcases hitems _ _ hlist hvalues with _ |
    ⟨⟨-, hfirst⟩, _ | ⟨⟨hsecond, -⟩, _ | _⟩⟩
  have hplain : scalar (String.ofList "7 8".toList) = .ok (.text "7 8") := by
    decide
  rw [hplain] at hsecond
  cases hsecond
  rw [hfirst _ hquoted]
  decide

end Literal

end SheetBinding
