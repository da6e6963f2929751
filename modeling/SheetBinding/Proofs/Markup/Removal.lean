import SheetBinding.Proofs.Markup.Numbers

/-!
# Taking nodes out of a document

A node that leaves the document keeps its number and becomes the top of a tree
of its own. So the numbers of a document are never lost, and none that occurred
once occurs twice: emptying an element and removing one move numbers from one
tree to another. `Document.count_clear_le` and `Document.count_remove_le` say so
with counts.

Removal inside a list of siblings looks one node ahead, because the text behind
a removed node goes to whatever stands before it. `takeOut` is the same step
with the text before the first sibling made explicit, so that it can be taken
one node at a time.
-/

namespace SheetBinding

namespace Node

mutual

theorem remove_of_not_mem {t : Nat} {n : Node} (h : t ∉ n.ids) :
    n.remove t = n := by
  match n with
  | element i tag as text [] tail => rw [remove]
  | element i tag as text (c :: rest) tail =>
      simp only [ids, idsAmong, List.mem_cons, List.mem_append, not_or] at h
      have hc : c.id ≠ t := fun he => h.2.1 (he ▸ c.id_mem_ids)
      rw [remove, if_neg (by simpa using hc), removeAmong_of_not_mem]
      simpa [idsAmong] using h.2
  | comment i content tail => rw [remove]

theorem removeAmong_of_not_mem {t : Nat} {ns : List Node}
    (h : t ∉ idsAmong ns) :
    removeAmong t ns = ns := by
  match ns with
  | [] => rw [removeAmong]
  | [a] =>
      simp only [idsAmong, List.append_nil] at h
      rw [removeAmong, remove_of_not_mem h]
  | a :: b :: rest =>
      simp only [idsAmong, List.mem_append, not_or] at h
      have hb : b.id ≠ t := fun he => h.2.1 (he ▸ b.id_mem_ids)
      rw [removeAmong, if_neg (by simpa using hb), remove_of_not_mem h.1,
        removeAmong_of_not_mem (by simpa [idsAmong] using h.2)]

end

/-- A text and the nodes that follow it, with the node of the given number taken
out. -/
def takeOut (t : Nat) (text : String) : List Node → String × List Node
  | [] => (text, [])
  | c :: rest =>
    if c.id == t then (text ++ c.tail, rest)
    else (text, removeAmong t (c :: rest))

theorem remove_element {t i : Nat} {tag : String} {as : Attributes}
    {text : String} {cs : List Node} {tail : String} :
    (element i tag as text cs tail).remove t =
      element i tag as (takeOut t text cs).1 (takeOut t text cs).2 tail := by
  cases cs with
  | nil => rw [remove, takeOut]
  | cons c rest =>
      rw [remove, takeOut]
      split <;> rfl

theorem remove_withTail (t : Nat) (n : Node) (s : String) :
    (n.withTail s).remove t = (n.remove t).withTail s := by
  cases n with
  | element i tag as text cs tail => simp only [withTail, remove_element]
  | comment i content tail => simp only [withTail, remove]

theorem tail_remove (t : Nat) (n : Node) : (n.remove t).tail = n.tail := by
  cases n with
  | element i tag as text cs tail => rw [remove_element]; rfl
  | comment i content tail => rw [remove]

theorem remove_addTail (t : Nat) (n : Node) (s : String) :
    (n.addTail s).remove t = (n.remove t).addTail s := by
  rw [addTail, remove_withTail, addTail, tail_remove]

theorem takeOut_head {t : Nat} {text : String} {c : Node} {rest : List Node}
    (h : c.id = t) :
    takeOut t text (c :: rest) = (text ++ c.tail, rest) := by
  rw [takeOut, if_pos (by simpa using h)]

/-- Past a node of another number, the text behind it takes the place of the
text at the front. -/
theorem takeOut_cons {t : Nat} {text : String} {c : Node} {rest : List Node}
    (h : c.id ≠ t) (hrest : t ∈ idsAmong rest → t ∉ c.ids) :
    takeOut t text (c :: rest) =
      (text, ((c.remove t).addTail (takeOut t "" rest).1) ::
        (takeOut t "" rest).2) := by
  rw [takeOut, if_neg (by simpa using h)]
  cases rest with
  | nil => rw [removeAmong, takeOut, addTail_empty]
  | cons b rest =>
      by_cases hb : b.id = t
      · have hc : t ∉ c.ids := hrest (by simp [idsAmong, ← hb, b.id_mem_ids])
        rw [removeAmong, if_pos (by simpa using hb), takeOut_head hb,
          remove_of_not_mem hc]
        simp
      · rw [removeAmong, if_neg (by simpa using hb), takeOut,
          if_neg (by simpa using hb), addTail_empty]

theorem takeOut_of_not_mem {t : Nat} {text : String} {ns : List Node}
    (h : t ∉ idsAmong ns) :
    takeOut t text ns = (text, ns) := by
  cases ns with
  | nil => rfl
  | cons n rest =>
      have hn : n.id ≠ t := fun he => h (by simp [idsAmong, ← he, n.id_mem_ids])
      rw [takeOut, if_neg (by simpa using hn), removeAmong_of_not_mem h]

theorem takeOut_append (t : Nat) (s text : String) (ns : List Node) :
    takeOut t (s ++ text) ns =
      (s ++ (takeOut t text ns).1, (takeOut t text ns).2) := by
  cases ns with
  | nil => rfl
  | cons n rest =>
      rw [takeOut, takeOut]
      split
      · rw [String.append_assoc]
      · rfl

/-! ## Counting numbers -/

theorem count_ids_element (t i : Nat) (tag : String) (as : Attributes)
    (text : String) (cs : List Node) (tail : String) :
    (element i tag as text cs tail).ids.count t =
      [i].count t + (idsAmong cs).count t := by
  rw [ids, ← List.singleton_append, List.count_append]

theorem count_idsAmong_cons (t : Nat) (n : Node) (rest : List Node) :
    (idsAmong (n :: rest)).count t =
      n.ids.count t + (idsAmong rest).count t := by
  rw [idsAmong, List.count_append]

theorem mem_idsAmong_of_mem {t : Nat} {n : Node} {ns : List Node} (h : n ∈ ns)
    (ht : t ∈ n.ids) :
    t ∈ idsAmong ns := by
  induction ns with
  | nil => cases h
  | cons k rest ih =>
      rw [idsAmong, List.mem_append]
      rcases List.mem_cons.1 h with rfl | h
      · exact .inl ht
      · exact .inr (ih h)

mutual

/-- A change that puts no number of interest into a node puts none into the
tree. -/
theorem count_update_le {t u : Nat} {change : Node → Node}
    (hchange : ∀ m, (change m).ids.count t ≤ m.ids.count t) (n : Node) :
    (n.update u change).ids.count t ≤ n.ids.count t := by
  match n with
  | element i tag as text cs tail =>
      rw [update]
      split
      · exact hchange _
      · have := count_updateAmong_le (u := u) hchange cs
        rw [count_ids_element, count_ids_element]
        omega
  | comment i content tail =>
      rw [update]
      split
      · exact hchange _
      · exact Nat.le_refl _

theorem count_updateAmong_le {t u : Nat} {change : Node → Node}
    (hchange : ∀ m, (change m).ids.count t ≤ m.ids.count t) (ns : List Node) :
    (idsAmong (updateAmong u change ns)).count t ≤ (idsAmong ns).count t := by
  match ns with
  | [] => exact Nat.le_of_eq (by rw [updateAmong])
  | n :: rest =>
      have := count_update_le (u := u) hchange n
      have := count_updateAmong_le (u := u) hchange rest
      rw [updateAmong, count_idsAmong_cons, count_idsAmong_cons]
      omega

end

mutual

/-- A change made to one node puts no more into the tree than into that node. -/
theorem count_update_le_add {t u k : Nat} {change : Node → Node}
    (hchange : ∀ m, (change m).ids.count t ≤ m.ids.count t + k) {n : Node}
    (honce : n.ids.count u ≤ 1) : (n.update u change).ids.count t ≤
      n.ids.count t + k := by
  match n with
  | element i tag as text cs tail =>
      rw [update]
      split
      · exact hchange _
      · rw [count_ids_element] at honce
        have hcs : (idsAmong cs).count u ≤ 1 := by omega
        have := count_updateAmong_le_add hchange hcs
        rw [count_ids_element, count_ids_element]
        omega
  | comment i content tail =>
      rw [update]
      split
      · exact hchange _
      · exact Nat.le_add_right _ _

theorem count_updateAmong_le_add {t u k : Nat} {change : Node → Node}
    (hchange : ∀ m, (change m).ids.count t ≤ m.ids.count t + k) {ns : List Node}
    (honce : (idsAmong ns).count u ≤ 1) :
    (idsAmong (updateAmong u change ns)).count t ≤
      (idsAmong ns).count t + k := by
  match ns with
  | [] =>
      rw [updateAmong]
      exact Nat.le_add_right _ _
  | n :: rest =>
      rw [count_idsAmong_cons] at honce
      rw [updateAmong, count_idsAmong_cons, count_idsAmong_cons]
      by_cases hu : u ∈ n.ids
      · have hpos := List.count_pos_iff.2 hu
        have hrest : u ∉ idsAmong rest := List.count_eq_zero.1 (by omega)
        have hn : n.ids.count u ≤ 1 := by omega
        have := count_update_le_add hchange hn
        rw [updateAmong_of_not_mem hrest]
        omega
      · have hrest : (idsAmong rest).count u ≤ 1 := by omega
        have := count_updateAmong_le_add hchange hrest
        rw [update_of_not_mem hu]
        omega

end

theorem count_withContent_empty_le (t : Nat) (s : String) (n : Node) :
    (n.withContent s []).ids.count t ≤ n.ids.count t := by
  cases n with
  | element i tag as text cs tail =>
      rw [withContent, count_ids_element, count_ids_element]
      simp [idsAmong]
  | comment i content tail => exact Nat.le_refl _

mutual

/-- Emptying an element takes the numbers of its children out of the tree. -/
theorem count_update_clear_le {t u : Nat} {n m : Node}
    (h : n.find? u = some m) :
    (n.update u (·.withContent "" [])).ids.count t +
      (idsAmong m.children).count t ≤
      n.ids.count t := by
  match n with
  | element i tag as text cs tail =>
      rw [find?] at h
      rw [update]
      split at h
      · next hi =>
          cases h
          rw [if_pos hi, withContent, count_ids_element, count_ids_element]
          simp [idsAmong, children]
      · next hi =>
          have := count_updateAmong_clear_le (t := t) h
          rw [if_neg hi, count_ids_element, count_ids_element]
          omega
  | comment i content tail =>
      rw [find?] at h
      split at h
      · next hi =>
          cases h
          rw [update, if_pos hi]
          simp [withContent, children, idsAmong]
      · cases h

theorem count_updateAmong_clear_le {t u : Nat} {ns : List Node} {m : Node}
    (h : findAmong? u ns = some m) :
    (idsAmong (updateAmong u (·.withContent "" []) ns)).count t +
      (idsAmong m.children).count t ≤ (idsAmong ns).count t := by
  match ns with
  | [] => rw [findAmong?] at h; cases h
  | n :: rest =>
      rw [findAmong?] at h
      rw [updateAmong, count_idsAmong_cons, count_idsAmong_cons]
      rcases Option.or_eq_some_iff.1 h with hn | ⟨-, hrest⟩
      · have := count_update_clear_le (t := t) hn
        have := count_updateAmong_le (u := u)
          (count_withContent_empty_le t "") rest
        omega
      · have := count_update_le (u := u) (count_withContent_empty_le t "") n
        have := count_updateAmong_clear_le (t := t) hrest
        omega

end

mutual

/-- Removal takes the numbers of the removed node out of the tree. -/
theorem count_remove {t u : Nat} {n m : Node} (h : n.find? u = some m)
    (hn : n.id ≠ u) (honce : n.ids.count u ≤ 1) :
    (n.remove u).ids.count t + m.ids.count t = n.ids.count t := by
  match n with
  | element i tag as text cs tail =>
      rw [find?, if_neg (by simpa using hn)] at h
      rw [count_ids_element] at honce
      have := count_takeOut (t := t) text h (by omega)
      rw [remove_element, count_ids_element, count_ids_element]
      omega
  | comment i content tail =>
      rw [find?, if_neg (by simpa using hn)] at h
      cases h

theorem count_takeOut {t u : Nat} (text : String) {ns : List Node} {m : Node}
    (h : findAmong? u ns = some m) (honce : (idsAmong ns).count u ≤ 1) :
    (idsAmong (takeOut u text ns).2).count t + m.ids.count t =
      (idsAmong ns).count t := by
  match ns with
  | [] => rw [findAmong?] at h; cases h
  | n :: rest =>
      rw [findAmong?] at h
      rw [count_idsAmong_cons] at honce ⊢
      by_cases hn : n.id = u
      · rw [← hn, find?_self] at h
        cases h
        rw [takeOut_head hn]
        exact Nat.add_comm _ _
      · have honly : u ∈ idsAmong rest → u ∉ n.ids := fun hr hu => by
          have := List.count_pos_iff.2 hr
          have := List.count_pos_iff.2 hu
          omega
        rw [takeOut_cons hn honly, count_idsAmong_cons, ids_addTail]
        rcases Option.or_eq_some_iff.1 h with hfound | ⟨hnone, hrest⟩
        · have hnot : u ∉ idsAmong rest := fun hr =>
            honly hr (by
              obtain ⟨hid, hin⟩ := find?_some hfound
              exact hin.subset (hid ▸ m.id_mem_ids))
          have := count_remove (t := t) hfound hn (by omega)
          rw [takeOut_of_not_mem hnot]
          dsimp only
          omega
        · have hnot : u ∉ n.ids := fun hu => by
            obtain ⟨m', hm'⟩ := exists_find?_of_mem hu
            rw [hm'] at hnone
            cases hnone
          have := count_takeOut (t := t) "" hrest (by omega)
          rw [remove_of_not_mem hnot]
          omega

end

end Node

/-! ## Documents -/

namespace Document

open Node

/-- The numbers in all trees of a document. -/
def ids (doc : Document) : List Nat :=
  idsAmong doc.trees

/-- Every node has a number of its own, below the first one that is not yet
given to a node. -/
structure WellNumbered (doc : Document) : Prop where
  nodup : doc.ids.Nodup
  lt_nextId : ∀ i ∈ doc.ids, i < doc.nextId

theorem find?_eq_findAmong? (doc : Document) (t : Nat) :
    doc.find? t = findAmong? t doc.trees := by
  rw [find?]
  induction doc.trees with
  | nil => rw [findAmong?]; rfl
  | cons n rest ih =>
      rw [findAmong?, ← ih, List.findSome?_cons]; cases n.find? t <;> rfl

theorem trees_update (doc : Document) (t : Nat) (change : Node → Node) :
    (doc.update t change).trees = updateAmong t change doc.trees := by
  rw [updateAmong_eq_map]
  rfl

theorem mem_ids_of_mem_root (doc : Document) {t : Nat} (h : t ∈ doc.root.ids) :
    t ∈ doc.ids := by
  rw [ids, trees, idsAmong]
  exact List.mem_append_left _ h

theorem count_update_le {t : Nat} {change : Node → Node}
    (hchange : ∀ m, (change m).ids.count t ≤ m.ids.count t) (doc : Document)
      (u : Nat) :
    (doc.update u change).ids.count t ≤ doc.ids.count t := by
  rw [ids, trees_update]
  exact count_updateAmong_le hchange _

theorem count_update_le_add {t u k : Nat} {change : Node → Node}
    (hchange : ∀ m, (change m).ids.count t ≤ m.ids.count t + k) {doc : Document}
    (honce : doc.ids.count u ≤ 1) : (doc.update u change).ids.count t ≤
      doc.ids.count t + k := by
  rw [ids, trees_update]
  exact count_updateAmong_le_add hchange honce

theorem ids_adopt (doc : Document) (nodes : List Node) (t : Nat) :
    (doc.adopt nodes).ids.count t =
      doc.ids.count t + (idsAmong nodes).count t := by
  simp only [ids, trees, adopt, count_idsAmong_cons, idsAmong_append,
    List.count_append, idsAmong_map_withTail]
  omega

/-- Emptying an element moves its children into trees of their own. -/
theorem count_clear_le (doc : Document) (u t : Nat) :
    (doc.clear u).ids.count t ≤ doc.ids.count t := by
  rw [clear, find?_eq_findAmong?]
  cases h : findAmong? u doc.trees with
  | none => exact Nat.le_refl _
  | some m =>
      have hmoved := count_updateAmong_clear_le (t := t) h
      rw [← trees_update] at hmoved
      simp only [ids_adopt]
      exact hmoved

/-- Emptying an element that is not there leaves all trees as they are, so the
tree of the document changes in one way only. -/
theorem root_clear (doc : Document) (u : Nat) :
    (doc.clear u).root = doc.root.update u (·.withContent "" []) := by
  rw [clear, find?_eq_findAmong?]
  cases h : findAmong? u doc.trees with
  | none =>
      refine (update_of_not_mem fun hu => ?_).symm
      obtain ⟨m, hm⟩ := exists_findAmong?_of_mem (doc.mem_ids_of_mem_root hu)
      rw [h] at hm
      cases hm
  | some m => rfl

theorem nextId_clear (doc : Document) (u : Nat) :
    (doc.clear u).nextId = doc.nextId := by
  rw [clear]
  cases doc.find? u <;> rfl

/-- Removal from each of some trees, none of which has the removed node at its
top. -/
theorem count_map_remove {t u : Nat} {ns : List Node} {m : Node}
    (h : findAmong? u ns = some m) (htop : ∀ n ∈ ns, n.id ≠ u)
      (honce : (idsAmong ns).count u ≤ 1) :
    (idsAmong (ns.map (·.remove u))).count t + m.ids.count t =
      (idsAmong ns).count t := by
  induction ns with
  | nil => rw [findAmong?] at h; cases h
  | cons n rest ih =>
      rw [findAmong?] at h
      rw [count_idsAmong_cons] at honce
      rw [List.map_cons, count_idsAmong_cons, count_idsAmong_cons]
      obtain ⟨hn, htop⟩ := List.forall_mem_cons.1 htop
      rcases Option.or_eq_some_iff.1 h with hfound | ⟨hnone, hrest⟩
      · obtain ⟨hid, hin⟩ := find?_some hfound
        have hmem : u ∈ n.ids := hin.subset (hid ▸ m.id_mem_ids)
        have := List.count_pos_iff.2 hmem
        have hnot : ∀ k ∈ rest, k.remove u = k :=
          fun k hk => remove_of_not_mem fun hu => by
          have hpos := List.count_pos_iff.2 (mem_idsAmong_of_mem hk hu)
          omega
        have := count_remove (t := t) hfound hn (by omega)
        rw [List.map_congr_left hnot, List.map_id']
        omega
      · have hnot : u ∉ n.ids := fun hu => by
          obtain ⟨m', hm'⟩ := exists_find?_of_mem hu
          rw [hm'] at hnone
          cases hnone
        have := ih hrest htop (by omega)
        rw [remove_of_not_mem hnot]
        omega

theorem isTop_eq_false {doc : Document} {u : Nat} (h : doc.isTop u = false) :
    ∀ n ∈ doc.trees, n.id ≠ u := by
  simpa [isTop] using h

/-- Removing a node moves it into a tree of its own. -/
theorem count_remove_le {doc : Document} {u : Nat} (honce : doc.ids.count u ≤ 1)
    (t : Nat) :
    (doc.remove u).ids.count t ≤ doc.ids.count t := by
  rw [remove, find?_eq_findAmong?]
  split
  · exact Nat.le_refl _
  · next htop =>
      cases h : findAmong? u doc.trees with
      | none => exact Nat.le_refl _
      | some m =>
          have hmoved := count_map_remove (t := t) h
            (isTop_eq_false (Bool.eq_false_iff.2 htop)) honce
          simp only [trees, List.map_cons, count_idsAmong_cons] at hmoved
          simp only [ids, trees, count_idsAmong_cons, ids_withTail]
          omega

/-- What removal does to the tree of the document: a top stays where it is. -/
theorem root_remove {doc : Document} {u : Nat} (honce : doc.ids.count u ≤ 1) :
    (doc.remove u).root = if doc.root.id = u then doc.root
      else doc.root.remove u := by
  have habsent : u ∉ doc.root.ids →
      doc.root.id ≠ u ∧ doc.root.remove u = doc.root :=
    fun h => ⟨fun he => h (he ▸ doc.root.id_mem_ids), remove_of_not_mem h⟩
  rw [remove, find?_eq_findAmong?]
  split
  · next htop =>
      split
      · rfl
      · next hroot =>
          -- The top of a tree that was taken out; by its count the number is
          -- not in the document.
          obtain ⟨d, hd, hid⟩ : ∃ d ∈ doc.detached, d.id = u := by
            simpa [isTop, trees, hroot] using htop
          refine (habsent fun hu => ?_).2.symm
          have := List.count_pos_iff.2 hu
          have :=
            List.count_pos_iff.2 (mem_idsAmong_of_mem hd (hid ▸ d.id_mem_ids))
          rw [ids, trees, count_idsAmong_cons] at honce
          omega
  · next htop =>
      have hroot : doc.root.id ≠ u :=
        isTop_eq_false (Bool.eq_false_iff.2 htop) _ (List.mem_cons_self ..)
      rw [if_neg hroot]
      cases h : findAmong? u doc.trees with
      | none =>
          refine (habsent fun hu => ?_).2.symm
          obtain ⟨m, hm⟩ :=
            exists_findAmong?_of_mem (doc.mem_ids_of_mem_root hu)
          rw [h] at hm
          cases hm
      | some m => rfl

theorem nextId_remove (doc : Document) (u : Nat) :
    (doc.remove u).nextId = doc.nextId := by
  rw [remove]
  split
  · rfl
  · cases doc.find? u <;> rfl

end Document

end SheetBinding
