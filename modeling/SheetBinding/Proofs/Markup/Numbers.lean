import SheetBinding.Markup.Document
import SheetBinding.Markup.Place

/-!
# The numbers of a tree

Every change of a document finds its node by number, so what a change does is a
question of which numbers stand where. This file lists the numbers of a tree in
document order and says of each operation what it does to that list: a search
answers with a stretch of it, a change of a number that is not there changes
nothing, and taking nodes out moves numbers to another tree without making any
of them occur more often.

The last point is stated with counts and not with permutations. The runs that
need it care about the numbers that a document had at the start, each of which
occurs at most once; the numbers of nodes that are put in later may be anything,
and an inequality of counts leaves them out.
-/

namespace SheetBinding

namespace Node

mutual

/-- The numbers at and below a node, in document order. -/
def ids : Node → List Nat
  | element i _ _ _ cs _ => i :: idsAmong cs
  | comment i _ _ => [i]

/-- The numbers at and below the nodes of a list, in document order. -/
def idsAmong : List Node → List Nat
  | [] => []
  | n :: rest => n.ids ++ idsAmong rest

end

@[simp] theorem id_element (i : Nat) (tag : String) (as : Attributes)
    (text : String) (cs : List Node) (tail : String) :
    (element i tag as text cs tail).id = i := rfl

@[simp] theorem id_comment (i : Nat) (content tail : String) :
    (comment i content tail).id = i :=
  rfl

@[simp] theorem id_withTail (n : Node) (s : String) :
    (n.withTail s).id = n.id := by
  cases n <;> rfl

@[simp] theorem ids_withTail (n : Node) (s : String) :
    (n.withTail s).ids = n.ids := by
  cases n <;> simp [withTail, ids]

@[simp] theorem id_addTail (n : Node) (s : String) : (n.addTail s).id = n.id :=
  id_withTail n _

@[simp] theorem ids_addTail (n : Node) (s : String) :
    (n.addTail s).ids = n.ids :=
  ids_withTail n _

@[simp] theorem tail_addTail (n : Node) (s : String) :
    (n.addTail s).tail = n.tail ++ s := by
  cases n <;> rfl

@[simp] theorem addTail_empty (n : Node) : n.addTail "" = n := by
  cases n <;> simp [addTail, withTail, tail]

theorem addTail_addTail (n : Node) (s u : String) :
    (n.addTail s).addTail u = n.addTail (s ++ u) := by
  cases n <;> simp [addTail, withTail, tail, String.append_assoc]

@[simp] theorem id_withAttributes (n : Node) (as : Attributes) :
    (n.withAttributes as).id = n.id := by
  cases n <;> rfl

@[simp] theorem ids_withAttributes (n : Node) (as : Attributes) :
    (n.withAttributes as).ids = n.ids := by
  cases n <;> simp [withAttributes, ids]

@[simp] theorem id_withContent (n : Node) (s : String) (cs : List Node) :
    (n.withContent s cs).id = n.id := by
  cases n <;> rfl

theorem id_mem_ids (n : Node) : n.id ∈ n.ids := by
  cases n <;> simp [id, ids]

theorem ids_eq_cons (n : Node) : n.ids = n.id :: idsAmong n.children := by
  cases n with
  | element i tag as text cs tail => rw [ids, id_element, children]
  | comment i content tail => rw [ids, id_comment, children, idsAmong]

theorem ids_withContent_sublist (n : Node) (s : String) (ns : List Node) :
    (n.withContent s ns).ids.Sublist (n.id :: idsAmong ns) := by
  cases n with
  | element i tag as text cs tail =>
      have hids : (element i tag as s ns tail).ids = i :: idsAmong ns := by
        rw [ids]
      exact hids ▸ List.Sublist.refl _
  | comment i content tail =>
      rw [withContent, ids, id_comment]
      exact (List.nil_sublist _).cons_cons i

theorem idsAmong_append (l₁ l₂ : List Node) :
    idsAmong (l₁ ++ l₂) = idsAmong l₁ ++ idsAmong l₂ := by
  induction l₁ with
  | nil => rfl
  | cons n rest ih => simp [idsAmong, ih]

theorem idsAmong_map_withTail (l : List Node) (s : String) :
    idsAmong (l.map (·.withTail s)) = idsAmong l := by
  induction l with
  | nil => rfl
  | cons n rest ih => simp [idsAmong, ih]

/-! ## Document order

The places of a tree list its nodes, so their numbers are those of the tree. -/

mutual

theorem map_id_placesUnder (levels : List Level) (n : Node) :
    (n.placesUnder levels).map Place.id = n.ids := by
  match n with
  | element i tag as text cs tail =>
      rw [placesUnder, List.map_cons, map_id_placesAmong, ids]
      rfl
  | comment i content tail => rw [placesUnder, ids]; rfl

theorem map_id_placesAmong (parent : Node) (up : List Level)
    (before ns : List Node) :
    (placesAmong parent up before ns).map Place.id = idsAmong ns := by
  match ns with
  | [] => rw [placesAmong, idsAmong]; rfl
  | n :: rest =>
      rw [placesAmong, List.map_append, map_id_placesUnder, map_id_placesAmong,
        idsAmong]

end

/-- The numbers of the elements of a tree, in document order. -/
def elementIds (root : Node) : List Nat :=
  (root.places.filter Place.isElement).map Place.id

theorem elementIds_sublist (root : Node) :
    root.elementIds.Sublist root.ids := by
  have h :=
    (List.filter_sublist (p := Place.isElement) (l := root.places)).map Place.id
  rwa [show root.places.map Place.id =
    root.ids from map_id_placesUnder [] root] at h

/-! ## Finding a number -/

mutual

theorem find?_of_not_mem {t : Nat} {n : Node} (h : t ∉ n.ids) :
    n.find? t = none := by
  match n with
  | element i tag as text cs tail =>
      simp only [ids, List.mem_cons, not_or] at h
      rw [find?, if_neg (by simpa using Ne.symm h.1)]
      exact findAmong?_of_not_mem h.2
  | comment i content tail =>
      simp only [ids, List.mem_singleton] at h
      rw [find?, if_neg (by simpa using Ne.symm h)]

theorem findAmong?_of_not_mem {t : Nat} {ns : List Node} (h : t ∉ idsAmong ns) :
    findAmong? t ns = none := by
  match ns with
  | [] => rw [findAmong?]
  | n :: rest =>
      simp only [idsAmong, List.mem_append, not_or] at h
      rw [findAmong?, find?_of_not_mem h.1, findAmong?_of_not_mem h.2]
      rfl

end

mutual

/-- What a search finds has the number that was looked for, and its own numbers
are a stretch of those of the tree. -/
theorem find?_some {t : Nat} {n m : Node} (h : n.find? t = some m) :
    m.id = t ∧ m.ids <:+: n.ids := by
  match n with
  | element i tag as text cs tail =>
      rw [find?] at h
      split at h
      · next hi =>
          cases h
          exact ⟨by simpa using hi, List.infix_rfl⟩
      · obtain ⟨hid, hin⟩ := findAmong?_some h
        refine ⟨hid, ?_⟩
        rw [ids]
        exact hin.trans (List.suffix_cons _ _).isInfix
  | comment i content tail =>
      rw [find?] at h
      split at h
      · next hi =>
          cases h
          exact ⟨by simpa using hi, List.infix_rfl⟩
      · cases h

theorem findAmong?_some {t : Nat} {ns : List Node} {m : Node}
    (h : findAmong? t ns = some m) :
    m.id = t ∧ m.ids <:+: idsAmong ns := by
  match ns with
  | [] => rw [findAmong?] at h; cases h
  | n :: rest =>
      rw [findAmong?] at h
      rw [idsAmong]
      rcases Option.or_eq_some_iff.1 h with hn | ⟨-, hrest⟩
      · obtain ⟨hid, hin⟩ := find?_some hn
        exact ⟨hid, hin.trans (List.prefix_append _ _).isInfix⟩
      · obtain ⟨hid, hin⟩ := findAmong?_some hrest
        exact ⟨hid, hin.trans (List.suffix_append _ _).isInfix⟩

end

mutual

theorem exists_find?_of_mem {t : Nat} {n : Node} (h : t ∈ n.ids) :
    ∃ m, n.find? t = some m := by
  match n with
  | element i tag as text cs tail =>
      rw [find?]
      split
      · exact ⟨_, rfl⟩
      · next hi =>
          rw [ids, List.mem_cons] at h
          rcases h with rfl | h
          · simp at hi
          · exact exists_findAmong?_of_mem h
  | comment i content tail =>
      simp only [ids, List.mem_singleton] at h
      rw [find?, if_pos (by simpa using h.symm)]
      exact ⟨_, rfl⟩

theorem exists_findAmong?_of_mem {t : Nat} {ns : List Node}
    (h : t ∈ idsAmong ns) :
    ∃ m, findAmong? t ns = some m := by
  match ns with
  | [] => rw [idsAmong] at h; cases h
  | n :: rest =>
      rw [idsAmong, List.mem_append] at h
      rw [findAmong?]
      by_cases hn : t ∈ n.ids
      · obtain ⟨m, hm⟩ := exists_find?_of_mem hn
        exact ⟨m, by rw [hm]; rfl⟩
      · rw [find?_of_not_mem hn]
        exact exists_findAmong?_of_mem (h.resolve_left hn)

end

theorem findAmong?_of_head {t : Nat} {n m : Node} {rest : List Node}
    (h : n.find? t = some m) :
    findAmong? t (n :: rest) = some m := by
  rw [findAmong?, h]
  rfl

theorem findAmong?_of_tail {t : Nat} {n m : Node} {rest : List Node}
    (hnodup : (idsAmong (n :: rest)).Nodup) (h : findAmong? t rest = some m) :
    findAmong? t (n :: rest) = some m := by
  obtain ⟨hid, hin⟩ := findAmong?_some h
  have hn : t ∉ n.ids := fun hn =>
    (List.nodup_append.1 hnodup).2.2 t hn t
      (hin.subset (hid ▸ m.id_mem_ids)) rfl
  rw [findAmong?, find?_of_not_mem hn, h]
  rfl

theorem find?_self (n : Node) : n.find? n.id = some n := by
  cases n <;> rw [find?, id, if_pos (beq_self_eq_true _)]

/-! ## Changing a node -/

mutual

theorem update_of_not_mem {t : Nat} {change : Node → Node} {n : Node}
    (h : t ∉ n.ids) :
    n.update t change = n := by
  match n with
  | element i tag as text cs tail =>
      simp only [ids, List.mem_cons, not_or] at h
      rw [update, if_neg (by simpa using Ne.symm h.1),
        updateAmong_of_not_mem h.2]
  | comment i content tail =>
      simp only [ids, List.mem_singleton] at h
      rw [update, if_neg (by simpa using Ne.symm h)]

theorem updateAmong_of_not_mem {t : Nat} {change : Node → Node} {ns : List Node}
    (h : t ∉ idsAmong ns) : updateAmong t change ns = ns := by
  match ns with
  | [] => rw [updateAmong]
  | n :: rest =>
      simp only [idsAmong, List.mem_append, not_or] at h
      rw [updateAmong, update_of_not_mem h.1, updateAmong_of_not_mem h.2]

end

theorem updateAmong_eq_map (t : Nat) (change : Node → Node) (ns : List Node) :
    updateAmong t change ns = ns.map (·.update t change) := by
  induction ns with
  | nil => rw [updateAmong, List.map_nil]
  | cons n rest ih => rw [updateAmong, ih, List.map_cons]

mutual

/-- A change that keeps the number of the node it is made to can be followed by
another. -/
theorem update_update {t : Nat} {first second : Node → Node}
    (hid : ∀ m, (first m).id = m.id)
    (htop : ∀ m : Node, m.id = t → m.update t second = second m) (n : Node) :
    (n.update t first).update t second =
      n.update t fun m => second (first m) := by
  match n with
  | element i tag as text cs tail =>
      rw [update, update]
      split
      · next hi =>
          rw [htop]
          rw [hid]
          exact eq_of_beq hi
      · next hi => rw [update, if_neg hi, updateAmong_updateAmong hid htop]
  | comment i content tail =>
      rw [update, update]
      split
      · next hi =>
          rw [htop]
          rw [hid]
          exact eq_of_beq hi
      · next hi => rw [update, if_neg hi]

theorem updateAmong_updateAmong {t : Nat} {first second : Node → Node}
    (hid : ∀ m, (first m).id = m.id) (htop : ∀ m : Node, m.id = t →
      m.update t second = second m)
    (ns : List Node) :
    updateAmong t second (updateAmong t first ns) =
      updateAmong t (fun m => second (first m)) ns := by
  match ns with
  | [] => simp only [updateAmong]
  | n :: rest =>
      rw [updateAmong, updateAmong, updateAmong, update_update hid htop n,
        updateAmong_updateAmong hid htop rest]

end

end Node

end SheetBinding
