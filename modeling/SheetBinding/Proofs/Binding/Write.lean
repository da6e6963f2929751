import SheetBinding.Binding.Apply
import SheetBinding.Proofs.Binding.Edit
import SheetBinding.Proofs.Markup.Numbering

/-!
# What one write does to a document

A value is bound to one element by one edit of the tree of the document
(`edited_bind`). Which edit that is can be read off the rule and the value
(`Rule.edit`), but for the numbers of new nodes, which go on from the first
number that is free.

The other trees of the document change too: what is taken out becomes a tree of
its own, and an element that had been taken out before may be written to,
unseen. All that has to be known of them is in the numbers. No number that was
there occurs more often than before, and those that are new occur once. So a
well numbered document stays one, whatever is bound.
-/

namespace SheetBinding

/-! ## The edits a rule asks for -/

namespace Edit

/-- The edit that writes a text into a place, new nodes being numbered from
`next`. A text that cannot be written there edits nothing. -/
def ofWrite (next : Nat) (place : Target) (text : String) : Edit :=
  match place with
  | .text => fill text []
  | .markup =>
    if text == "" then fill "" []
    else
      match Markup.readContent text next with
      | .error _ => keep
      | .ok (content, _) => fill content.text content.children
  | .attribute name =>
    match Document.attributeName name with
    | .error _ => keep
    | .ok name => put name text

/-- The edit that takes a place away. -/
def ofTakeAway (place : Target) : Edit :=
  match place with
  | .attribute name =>
    match Document.attributeName name with
    | .error _ => keep
    | .ok name => erase name
  | _ => drop

/-- The numbers of the nodes that an edit brings into the tree. -/
def newIds : Edit → List Nat
  | fill _ children => Node.idsAmong children
  | _ => []

end Edit

namespace Rule

/-- The edit of an element that a value is assigned to. -/
def edit (r : Rule) (next : Nat) (value : Scalar) : Edit :=
  match Target.ofPath r.path with
  | .error _ => .keep
  | .ok place =>
    if value = .null then
      match r.nullBehavior with
      | .ignore => .keep
      | .empty => .ofWrite next place ""
      | .remove => .ofTakeAway place
    else
      match value.render r.format with
      | .error _ => .keep
      | .ok text => .ofWrite next place text

end Rule

/-! ## One write -/

open Node

namespace Document

/-- What binding a value to an element may do: it makes one edit to the tree of
the document, and among all trees only the nodes that this edit brings in are
new. -/
structure Edited (doc : Document) (t : Nat) (e : Edit) (after : Document) :
    Prop where
  root : after.root = e.applyTo t doc.root
  nextId_le : doc.nextId ≤ after.nextId
  handedOut : HandedOut doc.nextId after.nextId e.newIds
  count_le : ∀ u, after.ids.count u ≤ doc.ids.count u + e.newIds.count u

variable {doc : Document} {t : Nat}

theorem edited_keep : doc.Edited t .keep doc :=
  ⟨rfl, Nat.le_refl _, .nil, fun _ => Nat.le_refl _⟩

/-- Setting and deleting attributes moves no node. -/
theorem edited_attributes {e : Edit} (he : ∀ s ns, e ≠ .fill s ns)
    (happly : e.applyTo t doc.root = doc.root.update t e.change) :
    doc.Edited t e (doc.update t e.change) := by
  have hnew : e.newIds = [] := by
    cases e with
    | fill s ns => exact absurd rfl (he s ns)
    | keep | put | erase | drop => rfl
  refine ⟨happly.symm, Nat.le_refl _, hnew ▸ .nil, fun u => ?_⟩
  rw [hnew]
  refine count_update_le (fun m => ?_) doc t
  cases e with
  | fill s ns => exact absurd rfl (he s ns)
  | keep | put | erase | drop => exact Nat.le_of_eq (by simp [Edit.change])

theorem edited_setAttribute {name value : String}
    (h : (doc.setAttribute t name value).failure = none) :
    doc.Edited t (.ofWrite doc.nextId (.attribute name) value)
      (doc.setAttribute t name value).document := by
  rw [Edit.ofWrite]
  rw [setAttribute] at h ⊢
  cases hname : attributeName name with
  | error e => rw [hname] at h; cases h
  | ok plain =>
      rw [hname] at h
      simp only at h ⊢
      split at h
      · next hs =>
          rw [if_pos hs]
          exact edited_attributes (e := .put plain value) (by simp) rfl
      · cases h

theorem edited_deleteAttribute {name : String}
    (h : (doc.deleteAttribute t name).failure = none) :
    doc.Edited t (.ofTakeAway (.attribute name))
      (doc.deleteAttribute t name).document := by
  rw [Edit.ofTakeAway]
  rw [deleteAttribute] at h ⊢
  cases hname : attributeName name with
  | error e => rw [hname] at h; cases h
  | ok plain => exact edited_attributes (e := .erase plain) (by simp) rfl

/-- Replacing the content of an element, which is emptied before. -/
theorem edited_fill {s : String} {ns : List Node} {next : Nat}
    (honce : doc.ids.count t ≤ 1) (hle : doc.nextId ≤ next)
    (hnew : HandedOut doc.nextId next (idsAmong ns)) :
    doc.Edited t (.fill s ns)
      { (doc.clear t).update t (·.withContent s ns) with nextId := next } := by
  refine ⟨?_, hle, hnew, fun u => ?_⟩
  · have htop : ∀ m : Node, m.id = t →
        m.update t (·.withContent s ns) = m.withContent s ns := by
      intro m hm
      cases m <;> rw [Node.update, if_pos (by simpa using hm)]
    show (doc.clear t).root.update t (·.withContent s ns) = _
    rw [root_clear, update_update (by simp) htop]
    refine congrArg (doc.root.update t ·) (funext fun m => ?_)
    cases m <;> rfl
  · have hchange : ∀ m : Node, (m.withContent s ns).ids.count u ≤
        m.ids.count u + (idsAmong ns).count u := by
      intro m
      cases m with
      | element i tag as text cs tail =>
          rw [withContent, count_ids_element, count_ids_element]
          omega
      | comment i content tail => exact Nat.le_add_right _ _
    have hclear := count_clear_le doc t u
    have hfill := count_update_le_add hchange
      (Nat.le_trans (count_clear_le doc t t) honce)
    exact Nat.le_trans hfill (Nat.add_le_add_right hclear _)

theorem edited_setText {s : String} (honce : doc.ids.count t ≤ 1)
    (h : (doc.setText t s).failure = none) :
    doc.Edited t (.ofWrite doc.nextId .text s) (doc.setText t s).document := by
  rw [setText] at h ⊢
  split at h
  · next hs =>
      rw [if_pos hs]
      exact edited_fill honce (Nat.le_of_eq (nextId_clear doc t).symm) .nil
  · cases h

theorem edited_setMarkup {s : String} (honce : doc.ids.count t ≤ 1)
    (h : (doc.setMarkup t s).failure = none) :
    doc.Edited t (.ofWrite doc.nextId .markup s)
      (doc.setMarkup t s).document := by
  rw [Edit.ofWrite]
  rw [setMarkup] at h ⊢
  by_cases hs : (s == "") = true
  · simp only [hs, if_true]
    exact ⟨root_clear doc t, Nat.le_of_eq (nextId_clear doc t).symm, .nil,
      fun u => count_clear_le doc t u⟩
  · simp only [hs, Bool.false_eq_true, if_false, nextId_clear] at h ⊢
    cases hread : Markup.readContent s doc.nextId with
    | error e => rw [hread] at h; cases h
    | ok r =>
        obtain ⟨content, next⟩ := r
        rw [hread] at h
        simp only at h ⊢
        split at h
        · next hstorable =>
            obtain ⟨hle, hnew⟩ := Markup.handedOut_readContent hread
            rw [if_pos hstorable]
            exact edited_fill honce hle hnew
        · cases h

theorem edited_remove (honce : doc.ids.count t ≤ 1) :
    doc.Edited t .drop (doc.remove t) :=
  ⟨root_remove honce, Nat.le_of_eq (nextId_remove doc t).symm, .nil,
    fun u => count_remove_le honce u⟩

theorem edited_write {place : Target} {s : String} (honce : doc.ids.count t ≤ 1)
    (h : (doc.write t place s).failure = none) :
    doc.Edited t (.ofWrite doc.nextId place s)
      (doc.write t place s).document := by
  match place with
  | .text => exact edited_setText honce h
  | .markup => exact edited_setMarkup honce h
  | .attribute name => exact edited_setAttribute h

theorem edited_takeAway {place : Target} (honce : doc.ids.count t ≤ 1)
    (h : (doc.takeAway t place).failure = none) :
    doc.Edited t (.ofTakeAway place) (doc.takeAway t place).document := by
  match place with
  | .text | .markup => exact edited_remove honce
  | .attribute name => exact edited_deleteAttribute h

/-- Binding a value makes the edit that the rule asks for. -/
theorem edited_bind {r : Rule} {v : Scalar} {after : Document}
    (honce : doc.ids.count t ≤ 1)
    (hbind : r.bindItem doc (v, t) = (after, none)) :
    doc.Edited t (r.edit doc.nextId v) after := by
  rw [Rule.bindItem, Prod.mk.injEq] at hbind
  obtain ⟨rfl, h⟩ := hbind
  rw [Rule.edit]
  simp only [Document.bind] at h ⊢
  cases hplace : Target.ofPath r.path with
  | error e => rw [hplace] at h; cases h
  | ok place =>
      rw [hplace] at h
      simp only at h ⊢
      by_cases hv : v = .null
      · simp only [hv, beq_self_eq_true, if_true] at h ⊢
        cases hnull : r.nullBehavior with
        | ignore => exact edited_keep
        | empty => rw [hnull] at h; exact edited_write honce h
        | remove => rw [hnull] at h; exact edited_takeAway honce h
      · simp only [beq_iff_eq, hv, if_false] at h ⊢
        cases htext : v.render r.format with
        | error fault => rw [htext] at h; cases h
        | ok s => rw [htext] at h; exact edited_write honce h

variable {e : Edit} {after : Document}

theorem Edited.count_le_of_lt (h : doc.Edited t e after) {u : Nat}
    (hu : u < doc.nextId) :
    after.ids.count u ≤ doc.ids.count u := by
  have hnew : e.newIds.count u = 0 := List.count_eq_zero.2 fun hmem => by
    have := (h.handedOut.bounds u hmem).1
    omega
  have := h.count_le u
  omega

/-- A number that is given out already occurs once, and one that is given out
now occurs once too. -/
theorem Edited.wellNumbered (h : doc.Edited t e after)
    (hdoc : doc.WellNumbered) :
    after.WellNumbered := by
  refine ⟨List.nodup_iff_count.2 fun u => ?_, fun i hi => ?_⟩
  · by_cases hu : u < doc.nextId
    · exact Nat.le_trans (h.count_le_of_lt hu)
        (List.nodup_iff_count.1 hdoc.nodup u)
    · have hold : doc.ids.count u = 0 :=
        List.count_eq_zero.2 fun hmem => hu (hdoc.lt_nextId u hmem)
      have := h.count_le u
      have := List.nodup_iff_count.1 h.handedOut.nodup u
      omega
  · by_cases hold : i ∈ doc.ids
    · exact Nat.lt_of_lt_of_le (hdoc.lt_nextId i hold) h.nextId_le
    · have hpos := List.count_pos_iff.2 hi
      have := h.count_le i
      have := List.count_eq_zero.2 hold
      exact (h.handedOut.bounds i (List.count_pos_iff.1 (by omega))).2

end Document

end SheetBinding
