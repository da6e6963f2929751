import SheetBinding.Proofs.Binding.Write

/-!
# Binding items is one rewrite of the tree

A rule binds its items to the selected elements one after the other, and every
write changes the tree that the next one finds. `bindItems_root` says that the
order does not show: when no write fails, the tree that is left is the original
tree rewritten in one pass, each element by the edit that its item asks for.

The edits of the one pass are read off the rule and the position of an element
among those selected, without any document. A write of markup makes new nodes,
and the number that a new node gets depends on what was written before, also on
what was written out of sight into elements that had been taken out. No one but
the document knows these numbers, so the two trees are compared with all of them
made one (`Node.anonymous`); the numbers of the nodes that were there before are
compared as they are.

A run keeps two things: the tree is the original one rewritten by the edits made
so far, and every number that was there at the start occurs at most once among
all trees, so that a removed element is not mistaken for one of the document.
That what is still to be edited has nothing edited below it is a fact about
document order (`Node.ids_ordered`).
-/

namespace SheetBinding

/-! ## The edits of all elements -/

namespace Rule

/-- The value that is assigned to an element: the item at the position that the
element has among those selected, or the default if there are fewer items. -/
def assigned? (r : Rule) (elements : List Nat) (id : Nat) : Option Scalar :=
  (elements.idxOf? id).bind fun i => r.items[i]?.or r.default

/-- The edit of any element of the tree. -/
def editAt (r : Rule) (next : Nat) (elements : List Nat) (id : Nat) : Edit :=
  match r.assigned? elements id with
  | none => .keep
  | some value => r.edit next value

end Rule

/-- A node with the numbers from `first` on made one. -/
def Node.anonymous (first : Nat) (n : Node) : Node :=
  n.renumber (min first)

open Node

/-! ## New numbers -/

/-- Where new nodes are numbered from shows in their numbers only. -/
theorem Edit.renumber_ofWrite {first next : Nat} (hle : first ≤ next)
    (place : Target) (s : String) :
    (ofWrite next place s).renumber (min first) =
      (ofWrite 0 place s).renumber fun _ => first := by
  match place with
  | .text => rfl
  | .attribute name => rw [ofWrite, ofWrite]; split <;> rfl
  | .markup =>
      have hmin : (fun i => min first (next + i)) = fun _ => first :=
        funext fun i => Nat.min_eq_left (by omega)
      have hadd := Markup.readContent_add s next 0
      rw [Nat.add_zero] at hadd
      rw [ofWrite, ofWrite]
      split
      · rfl
      · rw [hadd]
        cases Markup.readContent s 0 with
        | error e => rfl
        | ok c =>
            simp only [Except.map, Edit.renumber, Markup.Content.renumber,
              renumberAmong_renumberAmong, hmin]

theorem Rule.renumber_edit {first next : Nat} (hle : first ≤ next) (r : Rule)
    (v : Scalar) :
    (r.edit next v).renumber (min first) =
      (r.edit first v).renumber (min first) := by
  have hwrite : ∀ place s, (Edit.ofWrite next place s).renumber (min first) =
      (Edit.ofWrite first place s).renumber (min first) := fun place s =>
    (Edit.renumber_ofWrite hle place s).trans
      (Edit.renumber_ofWrite (Nat.le_refl first) place s).symm
  rw [edit, edit]
  split
  · rfl
  · split
    · split
      · rfl
      · exact hwrite _ _
      · rfl
    · split
      · rfl
      · exact hwrite _ _

/-! ## Which value an element is assigned -/

section Assignment

variable {α β : Type}

/-- The pair that an element is in has the item at the element's position, or
the default. -/
theorem find?_pairUp [BEq β] (default : Option α) (items : List α)
    (elements : List β) (e : β) :
    ((pairUp default items elements).find? (·.2 == e)).map (·.1) =
      (elements.idxOf? e).bind fun i => items[i]?.or default := by
  induction elements generalizing items with
  | nil => simp [pairUp, List.idxOf?]
  | cons k rest ih =>
      rw [List.idxOf?_cons]
      cases items with
      | cons item items =>
          rw [pairUp, List.find?_cons]
          by_cases hk : (k == e) = true
          · simp [hk]
          · simp only [hk, ih]
            cases rest.idxOf? e <;> simp
      | nil =>
          cases default with
          | none => simp [pairUp]
          | some v =>
              rw [pairUp, List.find?_cons]
              by_cases hk : (k == e) = true
              · simp [hk]
              · simp only [hk, ih]
                cases rest.idxOf? e <;> simp

theorem map_snd_pairUp_isPrefix_of (default : Option α) (items : List α)
    (elements : List β) :
    (pairUp default items elements).map (·.2) <+: elements := by
  induction elements generalizing items with
  | nil => simp [pairUp]
  | cons k rest ih =>
      cases items with
      | cons item items =>
          rw [pairUp, List.map_cons, List.cons_prefix_cons]
          exact ⟨rfl, ih items⟩
      | nil =>
          cases default with
          | none => simp [pairUp]
          | some v =>
              rw [pairUp, List.map_cons, List.cons_prefix_cons]
              exact ⟨rfl, ih []⟩

end Assignment

/-! ## Document order -/

namespace Node

/-- Of two numbers of which one comes first, the first one is not below the
other. -/
def Ordered (root : Node) (ts : List Nat) : Prop :=
  ts.Pairwise fun a b => ∀ m, root.find? b = some m → a ∉ m.ids

theorem not_sublist_of_nodup {a b : Nat} {l : List Nat} (h : l.Nodup)
    (hab : [a, b].Sublist l) :
    ¬ [b, a].Sublist l := by
  induction l with
  | nil => cases hab
  | cons x xs ih =>
      intro hba
      obtain ⟨hx, hxs⟩ := List.nodup_cons.1 h
      rcases List.sublist_cons_iff.1 hab with htail | ⟨_, hr, hb⟩
      · rcases List.sublist_cons_iff.1 hba with htail' | ⟨_, hr', -⟩
        · exact ih hxs htail htail'
        · cases hr'
          exact hx
            (htail.subset (List.mem_cons_of_mem a (List.mem_singleton_self b)))
      · cases hr
        rcases List.sublist_cons_iff.1 hba with htail' | ⟨_, hr', -⟩
        · exact hx (htail'.subset
            (List.mem_cons_of_mem b (List.mem_singleton_self a)))
        · cases hr'
          exact hx (List.singleton_sublist.1 hb)

/-- What lies below a node comes after it. -/
theorem ids_ordered {root : Node} (h : root.ids.Nodup) :
    root.Ordered root.ids := by
  refine List.pairwise_iff_forall_sublist.2 fun {a b} hab m hm ha => ?_
  obtain ⟨hid, hin⟩ := find?_some hm
  rw [m.ids_eq_cons, hid] at ha hin
  rcases List.mem_cons.1 ha with rfl | ha
  · exact absurd (h.sublist hab) (by simp)
  · have hba : [b, a].Sublist (b :: idsAmong m.children) :=
      (List.singleton_sublist.2 ha).cons_cons b
    exact not_sublist_of_nodup h hab (hba.trans hin.sublist)

end Node

/-! ## The run -/

/-- A document in which some of the original elements have been edited: its tree
is the original one rewritten by the edits made so far. -/
structure Rewritten (original : Node) (first : Nat) (edits : Nat → Edit)
    (doc : Document) :
    Prop where
  root : doc.root = original.rewrite edits
  first_le : first ≤ doc.nextId
  once : ∀ t < first, doc.ids.count t ≤ 1
  fresh : ∀ i s ns, edits i = .fill s ns → ∀ j ∈ idsAmong ns, first ≤ j

/-- One more edit of an element nothing of which has been edited. -/
theorem Rewritten.edited {original : Node} {first t : Nat} {edits : Nat → Edit}
    {e : Edit} {doc after : Document} (h : Rewritten original first edits doc)
    (hedit : doc.Edited t e after) (hnodup : original.ids.Nodup)
    (ht : t ∈ original.ids) (hlt : t < first)
    (hkeep : ∀ m, original.find? t = some m → ∀ i ∈ m.ids, edits i = .keep) :
    Rewritten original first (Function.update edits t e) after := by
  refine ⟨?_, Nat.le_trans h.first_le hedit.nextId_le, fun u hu => ?_,
    fun i s ns hi j hj => ?_⟩
  · have hself : edits t = .keep := by
      obtain ⟨m, hm⟩ := exists_find?_of_mem ht
      exact hkeep m hm t ((find?_some hm).1 ▸ m.id_mem_ids)
    have hfresh : ∀ i s ns, edits i = .fill s ns → t ∉ idsAmong ns :=
      fun i s ns hi hmem => absurd (h.fresh i s ns hi t hmem) (by omega)
    rw [hedit.root, h.root, applyTo_rewrite e hnodup hkeep hself hfresh]
  · exact Nat.le_trans (hedit.count_le_of_lt (Nat.lt_of_lt_of_le hu h.first_le))
      (h.once u hu)
  · by_cases hit : i = t
    · subst hit
      rw [Function.update_self] at hi
      have hnew : j ∈ e.newIds := by
        rw [hi]
        exact hj
      exact Nat.le_trans h.first_le (hedit.handedOut.bounds j hnew).1
    · rw [Function.update_of_ne hit] at hi
      exact h.fresh i s ns hi j hj

/-- Binding pairs one after the other edits each element as its item asks, up to
new numbers, and no other element. -/
theorem rewritten_bindPairs {r : Rule} {original : Node} {first : Nat}
    (hnodup : original.ids.Nodup) (hlt : ∀ t ∈ original.ids, t < first)
    {pairs : List (Scalar × Nat)} {count bound : Nat} {doc after : Document}
      {edits : Nat → Edit}
    (h : Rewritten original first edits doc)
    (hmem : ∀ p ∈ pairs, p.2 ∈ original.ids)
      (hdistinct : (pairs.map (·.2)).Nodup)
    (hordered : original.Ordered (pairs.map (·.2)))
    (hkeep : ∀ p ∈ pairs, ∀ m, original.find? p.2 = some m →
      ∀ i ∈ m.ids, edits i = .keep)
    (hrun : bindPairs r.bindItem count doc pairs = (after, .ok bound)) :
    ∃ final, Rewritten original first final after ∧
      (∀ p ∈ pairs, (final p.2).renumber (min first) =
        (r.edit first p.1).renumber (min first)) ∧
      ∀ i, i ∉ pairs.map (·.2) → final i = edits i := by
  induction pairs generalizing count doc edits with
  | nil =>
      rw [bindPairs, Prod.mk.injEq] at hrun
      rw [← hrun.1]
      exact ⟨edits, h, by simp, fun _ _ => rfl⟩
  | cons p rest ih =>
      obtain ⟨v, t⟩ := p
      obtain ⟨hhead, hrest⟩ := List.forall_mem_cons.1 hmem
      obtain ⟨hnot, hdistinct⟩ := List.nodup_cons.1 hdistinct
      obtain ⟨hbefore, hordered⟩ := List.pairwise_cons.1 hordered
      obtain ⟨hkeepHead, hkeepRest⟩ := List.forall_mem_cons.1 hkeep
      have honce := h.once t (hlt t hhead)
      rw [bindPairs] at hrun
      rcases hbind : r.bindItem doc (v, t) with ⟨next, failure⟩
      rw [hbind] at hrun
      cases failure with
      | some e => cases hrun
      | none =>
          have hstep := h.edited (Document.edited_bind honce hbind) hnodup hhead
            (hlt t hhead) hkeepHead
          have hkeepNext : ∀ p ∈ rest, ∀ m, original.find? p.2 = some m →
              ∀ i ∈ m.ids,
              Function.update edits t (r.edit doc.nextId v) i = .keep := by
            intro p hp m hm i hi
            have hti : i ≠ t := fun he =>
              hbefore p.2 (List.mem_map_of_mem hp) m hm (he ▸ hi)
            rw [Function.update_of_ne hti]
            exact hkeepRest p hp m hm i hi
          obtain ⟨final, hfinal, hdone, hsame⟩ :=
            ih hstep hrest hdistinct hordered hkeepNext hrun
          refine ⟨final, hfinal, List.forall_mem_cons.2 ⟨?_, hdone⟩,
            fun i hi => ?_⟩
          · rw [hsame t hnot, Function.update_self]
            exact r.renumber_edit h.first_le v
          · rw [List.map_cons, List.mem_cons, not_or] at hi
            rw [hsame i hi.2, Function.update_of_ne hi.1]

/-- A rule whose items are bound without failure to elements in document order
leaves the tree that one pass from the top down leaves, each element being
edited as its own item asks. -/
theorem bindItems_root {r : Rule} {doc : Document} {elements : List Nat}
    (hdoc : doc.WellNumbered) (helements : elements.Sublist doc.root.elementIds)
    (hok : (r.bindItems doc elements).failure = none) :
    (r.bindItems doc elements).document.root.anonymous doc.nextId =
      (doc.root.rewrite (r.editAt doc.nextId elements)).anonymous
        doc.nextId := by
  have hsub := helements.trans doc.root.elementIds_sublist
  have hroot : doc.root.ids.Sublist doc.ids := List.sublist_append_left _ _
  have hnodup := hdoc.nodup.sublist hroot
  have hpairs :=
    (map_snd_pairUp_isPrefix_of r.default r.items elements).sublist.trans hsub
  have hstart : Rewritten doc.root doc.nextId (fun _ => .keep) doc :=
    ⟨(rewrite_keep _).symm, Nat.le_refl _,
      fun t _ => List.nodup_iff_count.1 hdoc.nodup t, fun _ _ _ h => by cases h⟩
  rw [Rule.bindItems, bindTo] at hok ⊢
  cases hrun : bindPairs r.bindItem 0 doc
    (pairUp r.default r.items elements) with
  | mk after result =>
      cases result with
      | error e => rw [hrun] at hok; cases hok
      | ok bound =>
          obtain ⟨final, hfinal, hdone, hsame⟩ := rewritten_bindPairs hnodup
            (fun t ht => hdoc.lt_nextId t (hroot.subset ht)) hstart (fun p hp =>
            hpairs.subset (List.mem_map_of_mem hp)) (hnodup.sublist hpairs)
            ((ids_ordered hnodup).sublist hpairs) (fun _ _ _ _ _ _ => rfl) hrun
          rw [anonymous, anonymous]
          show after.root.renumber _ = _
          rw [hfinal.root]
          refine renumber_rewrite_congr fun i _ => ?_
          have hfind := find?_pairUp r.default r.items elements i
          rw [Rule.editAt, Rule.assigned?, ← hfind]
          cases hp : (pairUp r.default r.items elements).find? (·.2 == i) with
          | none =>
              refine congrArg (Edit.renumber _) (hsame i fun hi => ?_)
              obtain ⟨p, hp', rfl⟩ := List.mem_map.1 hi
              simpa using List.find?_eq_none.1 hp p hp'
          | some p =>
              have hid : p.2 = i := by simpa using List.find?_some hp
              rw [← hid]
              exact hdone p (List.mem_of_find?_eq_some hp)

/-- A document with an element inside one that is filled before it, and one that
is taken out. -/
def nestedDocument : Document where
  root :=
    .element 0 "div" [] ""
      [.element 1 "p" [] "a" [.element 2 "b" [] "c" [] "d"] "e",
        .element 3 "i" [] "f" [] "g"] ""
  detached := []
  nextId := 4

/-- A rule that fills two elements and takes out a third. -/
def nestedRule : Rule where
  selector := ⟨"*", []⟩
  source := some [.text "x", .text "y", .null]
  nullBehavior := .remove

theorem bindItems_root_nested :
    nestedDocument.WellNumbered ∧
      [1, 2, 3].Sublist nestedDocument.root.elementIds ∧
      (nestedRule.bindItems nestedDocument [1, 2, 3]).failure = none ∧
      (nestedRule.bindItems nestedDocument
          [1, 2, 3]).document.root.anonymous 4 =
        (nestedDocument.root.rewrite
          (nestedRule.editAt 4 [1, 2, 3])).anonymous 4 := by
  have hdoc : nestedDocument.WellNumbered := ⟨by decide, by decide⟩
  have helements : [1, 2, 3].Sublist nestedDocument.root.elementIds := by decide
  have hok :
      (nestedRule.bindItems nestedDocument [1, 2, 3]).failure = none := by
    decide
  exact ⟨hdoc, helements, hok, bindItems_root hdoc helements hok⟩

example :
    nestedDocument.root.rewrite (nestedRule.editAt 4 [1, 2, 3]) =
      .element 0 "div" [] "" [.element 1 "p" [] "x" [] "eg"] "" := by
  rfl

end SheetBinding
