import Mathlib.Logic.Function.Basic
import SheetBinding.Proofs.Markup.Removal
import SheetBinding.Proofs.Markup.Renumbering

/-!
# Edits, and rewriting a tree by them in one pass

Binding changes a document element by element, and each change finds its element
by number in whatever tree the changes before it have left. `Node.rewrite` is
the other way to say what comes out: every element is told its edit beforehand,
and one recursion over the original tree carries them all out, from the top
down.

The two meet in `applyTo_rewrite`: an edit that is made to the rewritten tree
might as well have been among those that the tree was rewritten by. That is so
as long as nothing at or below the edited element has been edited yet, which
holds when elements are taken in document order, because what lies below an
element comes after it. An element that an earlier edit has already taken out of
the tree is no exception: the recursion never comes to it, and the change does
not find it.
-/

namespace SheetBinding

/-- What is done to an element. -/
inductive Edit where
  | keep
  /-- Sets an attribute. -/
  | put (name value : String)
  /-- Deletes an attribute. -/
  | erase (name : String)
  /-- Replaces the content. -/
  | fill (text : String) (children : List Node)
  /-- Takes the element out, its tail excepted. The top of a tree cannot be
  taken out. -/
  | drop

namespace Edit

/-- What an edit makes of the attributes of its element. -/
def attributes (e : Edit) (as : Attributes) : Attributes :=
  match e with
  | put name value => as.put name value
  | erase name => as.erase name
  | _ => as

/-- Whether an edit takes its element out. -/
def isDrop : Edit → Bool
  | drop => true
  | _ => false

/-- An edit made to one node, if it does not take the node out. -/
def change (e : Edit) (n : Node) : Node :=
  match e with
  | fill text children => n.withContent text children
  | e => n.withAttributes (e.attributes n.attributes)

/-- What is left of a tree when an edit is made to the node of the given
number. -/
def applyTo (e : Edit) (t : Nat) (root : Node) : Node :=
  match e with
  | keep => root
  | drop => if root.id = t then root else root.remove t
  | e => root.update t e.change

end Edit

namespace Node

mutual

/-- A tree with an edit made to each of its elements, in one pass from the top
down. Where content is replaced, what was below is not looked at again. The tail
of a node that is taken out is joined to the tail of the last sibling before it
that stays, or else to the text of the parent. -/
def rewrite (edit : Nat → Edit) : Node → Node
  | element i tag as text cs tail =>
    match edit i with
    | .fill newText newChildren => element i tag as newText newChildren tail
    | e =>
      element i tag (e.attributes as) (text ++ (rewriteAmong edit cs).1)
        (rewriteAmong edit cs).2 tail
  | comment i content tail => comment i content tail

/-- Siblings with an edit made to each, and the text that is left at their
front. -/
def rewriteAmong (edit : Nat → Edit) : List Node → String × List Node
  | [] => ("", [])
  | n :: rest =>
    if (edit n.id).isDrop then
      (n.tail ++ (rewriteAmong edit rest).1, (rewriteAmong edit rest).2)
    else
      ("", (n.rewrite edit).addTail (rewriteAmong edit rest).1 ::
        (rewriteAmong edit rest).2)

end

variable {edit : Nat → Edit} {t : Nat}

theorem rewrite_fill {i : Nat} {tag : String} {as : Attributes} {text : String}
    {cs : List Node} {tail s : String} {ns : List Node}
    (h : edit i = .fill s ns) :
    (element i tag as text cs tail).rewrite edit =
      element i tag as s ns tail := by
  rw [rewrite, h]

theorem rewrite_of_not_fill {i : Nat} {tag : String} {as : Attributes}
    {text : String} {cs : List Node} {tail : String}
    (h : ∀ s ns, edit i ≠ .fill s ns) :
    (element i tag as text cs tail).rewrite edit =
      element i tag ((edit i).attributes as) (text ++ (rewriteAmong edit cs).1)
        (rewriteAmong edit cs).2 tail := by
  rw [rewrite]
  split
  · next s ns hfill => exact absurd hfill (h s ns)
  · rfl

@[simp] theorem id_rewrite (n : Node) : (n.rewrite edit).id = n.id := by
  cases n with
  | element i tag as text cs tail => rw [rewrite]; split <;> rfl
  | comment i content tail => rw [rewrite]

@[simp] theorem tail_rewrite (n : Node) : (n.rewrite edit).tail = n.tail := by
  cases n with
  | element i tag as text cs tail => rw [rewrite]; split <;> rfl
  | comment i content tail => rw [rewrite]

mutual

theorem rewrite_congr {other : Nat → Edit} {n : Node}
    (h : ∀ i ∈ n.ids, edit i = other i) :
    n.rewrite edit = n.rewrite other := by
  match n with
  | element i tag as text cs tail =>
      rw [ids, List.forall_mem_cons] at h
      rw [rewrite, rewrite, rewriteAmong_congr h.2, h.1]
  | comment i content tail => rw [rewrite, rewrite]

theorem rewriteAmong_congr {other : Nat → Edit} {ns : List Node}
    (h : ∀ i ∈ idsAmong ns, edit i = other i) : rewriteAmong edit ns =
      rewriteAmong other ns := by
  match ns with
  | [] => rw [rewriteAmong, rewriteAmong]
  | n :: rest =>
      rw [idsAmong, List.forall_mem_append] at h
      rw [rewriteAmong, rewriteAmong, rewrite_congr h.1, rewriteAmong_congr h.2,
        h.1 _ n.id_mem_ids]

end

mutual

theorem rewrite_keep (n : Node) : (n.rewrite fun _ => .keep) = n := by
  match n with
  | element i tag as text cs tail =>
      rw [rewrite_of_not_fill (by simp), rewriteAmong_keep]
      simp [Edit.attributes]
  | comment i content tail => rw [rewrite]

theorem rewriteAmong_keep (ns : List Node) :
    rewriteAmong (fun _ => .keep) ns = ("", ns) := by
  match ns with
  | [] => rw [rewriteAmong]
  | n :: rest =>
      rw [rewriteAmong, rewrite_keep, rewriteAmong_keep]
      simp [Edit.isDrop]

end

theorem rewrite_of_keep {n : Node} (h : ∀ i ∈ n.ids, edit i = .keep) :
    n.rewrite edit = n :=
  (rewrite_congr h).trans (rewrite_keep n)

theorem rewriteAmong_of_keep {ns : List Node}
    (h : ∀ i ∈ idsAmong ns, edit i = .keep) :
    rewriteAmong edit ns = ("", ns) :=
  (rewriteAmong_congr h).trans (rewriteAmong_keep ns)

mutual

/-- A number that no new content has can only come from the original tree. -/
theorem mem_ids_of_mem_rewrite
    (hfresh : ∀ i s ns, edit i = .fill s ns → t ∉ idsAmong ns) {n : Node}
    (h : t ∈ (n.rewrite edit).ids) : t ∈ n.ids := by
  match n with
  | element i tag as text cs tail =>
      rw [ids, List.mem_cons]
      rw [rewrite] at h
      split at h
      · next s ns hfill =>
          rw [ids, List.mem_cons] at h
          exact .inl (h.resolve_right (hfresh i s ns hfill))
      · rw [ids, List.mem_cons] at h
        exact h.imp_right (mem_idsAmong_of_mem_rewriteAmong hfresh)
  | comment i content tail => rwa [rewrite] at h

theorem mem_idsAmong_of_mem_rewriteAmong
    (hfresh : ∀ i s ns, edit i = .fill s ns → t ∉ idsAmong ns) {ns : List Node}
    (h : t ∈ idsAmong (rewriteAmong edit ns).2) : t ∈ idsAmong ns := by
  match ns with
  | [] => rwa [rewriteAmong] at h
  | n :: rest =>
      rw [idsAmong, List.mem_append]
      rw [rewriteAmong] at h
      split at h
      · exact .inr (mem_idsAmong_of_mem_rewriteAmong hfresh h)
      · rw [idsAmong, List.mem_append, ids_addTail] at h
        exact h.imp (mem_ids_of_mem_rewrite hfresh)
          (mem_idsAmong_of_mem_rewriteAmong hfresh)

end

/-! ## One more edit -/

theorem update_of_not_mem_ids {e : Edit} {l : List Nat} (h : t ∉ l) :
    ∀ i ∈ l, Function.update edit t e i = edit i :=
  fun i hi => Function.update_of_ne (fun he : i = t => h (he ▸ hi)) e edit

theorem change_addTail (e : Edit) (n : Node) (s : String) :
    e.change (n.addTail s) = (e.change n).addTail s := by
  cases n <;> cases e <;> rfl

theorem update_change_addTail (e : Edit) (n : Node) (s : String) :
    (n.addTail s).update t e.change = (n.update t e.change).addTail s := by
  cases n with
  | element i tag as text cs tail =>
      rw [addTail, withTail, update, update]
      split
      · exact change_addTail e (element i tag as text cs tail) s
      · rfl
  | comment i content tail =>
      rw [addTail, withTail, update, update]
      split
      · exact change_addTail e (comment i content tail) s
      · rfl

/-- An edit of an element nothing of which has been edited. -/
theorem rewrite_update_self {e : Edit} {i : Nat} {tag : String}
    {as : Attributes} {text : String} {cs : List Node} {tail : String}
    (he : e.isDrop = false)
    (hkeep : ∀ j ∈ (element i tag as text cs tail).ids, edit j = .keep)
    (hi : i ∉ idsAmong cs) :
    (element i tag as text cs tail).rewrite (Function.update edit i e) =
      e.change (element i tag as text cs tail) := by
  have hcs : rewriteAmong (Function.update edit i e) cs = ("", cs) := by
    refine rewriteAmong_of_keep fun j hj => ?_
    rw [update_of_not_mem_ids hi j hj]
    exact hkeep j (List.mem_cons_of_mem _ hj)
  cases e with
  | fill s ns => rw [rewrite_fill (Function.update_self ..)]; rfl
  | drop => cases he
  | keep | put | erase =>
      rw [rewrite_of_not_fill (by simp [Function.update_self]), hcs,
        Function.update_self]
      simp [Edit.change, withAttributes, Node.attributes]

/-- The top of a tree stays where it is. -/
theorem rewrite_drop_top {n : Node} (hkeep : ∀ i ∈ n.ids, edit i = .keep)
    (hnodup : n.ids.Nodup) :
    n.rewrite (Function.update edit n.id .drop) = n.rewrite edit := by
  rw [rewrite_of_keep hkeep]
  cases n with
  | element i tag as text cs tail =>
      rw [ids, List.nodup_cons] at hnodup
      have hcs : rewriteAmong (Function.update edit i .drop) cs = ("", cs) := by
        refine rewriteAmong_of_keep fun j hj => ?_
        rw [update_of_not_mem_ids hnodup.1 j hj]
        exact hkeep j (List.mem_cons_of_mem _ hj)
      rw [id_element, rewrite_of_not_fill (by simp), hcs, Function.update_self]
      simp [Edit.attributes]
  | comment i content tail => rw [rewrite]

mutual

/-- Making an edit to a rewritten tree is rewriting the tree by one more
edit. -/
theorem change_rewrite {e : Edit} {n : Node} (he : e.isDrop = false)
    (hnodup : n.ids.Nodup)
    (hkeep : ∀ m, n.find? t = some m → ∀ i ∈ m.ids, edit i = .keep)
    (hfresh : ∀ i s ns, edit i = .fill s ns → t ∉ idsAmong ns) :
    (n.rewrite edit).update t e.change =
      n.rewrite (Function.update edit t e) := by
  match n with
  | element i tag as text cs tail =>
      rw [ids, List.nodup_cons] at hnodup
      by_cases hi : i = t
      · subst hi
        have hkeep := hkeep _ (find?_self (element i tag as text cs tail))
        rw [rewrite_of_keep hkeep, rewrite_update_self he hkeep hnodup.1,
          update, if_pos (beq_self_eq_true i)]
      · have hsame : Function.update edit t e i = edit i :=
          Function.update_of_ne hi e edit
        rw [find?, if_neg (by simpa using hi)] at hkeep
        by_cases hfill : ∃ s ns, edit i = .fill s ns
        · obtain ⟨s, ns, hfill⟩ := hfill
          rw [rewrite_fill hfill, rewrite_fill (hsame.trans hfill), update,
            if_neg (by simpa using hi),
            updateAmong_of_not_mem (hfresh i s ns hfill)]
        · have hnot : ∀ s ns, edit i ≠ .fill s ns :=
            fun s ns h => hfill ⟨s, ns, h⟩
          have hcs := change_rewriteAmong he hnodup.2 hkeep hfresh
          rw [rewrite_of_not_fill hnot, rewrite_of_not_fill (by rwa [hsame]),
            update, if_neg (by simpa using hi), hsame, ← hcs]
  | comment i content tail =>
      rw [rewrite, rewrite, update]
      split
      · cases e <;> rfl
      · rfl

theorem change_rewriteAmong {e : Edit} {ns : List Node} (he : e.isDrop = false)
    (hnodup : (idsAmong ns).Nodup)
    (hkeep : ∀ m, findAmong? t ns = some m → ∀ i ∈ m.ids, edit i = .keep)
    (hfresh : ∀ i s ns, edit i = .fill s ns → t ∉ idsAmong ns) :
    ((rewriteAmong edit ns).1, updateAmong t e.change
      (rewriteAmong edit ns).2) =
      rewriteAmong (Function.update edit t e) ns := by
  match ns with
  | [] => simp only [rewriteAmong, updateAmong]
  | n :: rest =>
      have hn := change_rewrite he (List.nodup_append.1 hnodup).1
        (fun m hm => hkeep m (findAmong?_of_head hm)) hfresh
      have hrest := change_rewriteAmong he (List.nodup_append.1 hnodup).2.1
        (fun m hm => hkeep m (findAmong?_of_tail hnodup hm)) hfresh
      have hdrop : (Function.update edit t e n.id).isDrop =
          (edit n.id).isDrop := by
        by_cases hid : n.id = t
        · subst hid
          rw [Function.update_self, he,
            hkeep n (findAmong?_of_head n.find?_self) _ n.id_mem_ids]
          rfl
        · rw [Function.update_of_ne hid]
      rw [rewriteAmong, rewriteAmong, hdrop, ← hrest, ← hn]
      split
      · rfl
      · rw [updateAmong, update_change_addTail]

end

mutual

/-- Taking a node out of a rewritten tree is rewriting the tree with the node
dropped. -/
theorem remove_rewrite {n : Node} (hn : n.id ≠ t) (hnodup : n.ids.Nodup)
    (hkeep : ∀ m, n.find? t = some m → ∀ i ∈ m.ids, edit i = .keep)
    (hfresh : ∀ i s ns, edit i = .fill s ns → t ∉ idsAmong ns) :
    (n.rewrite edit).remove t = n.rewrite (Function.update edit t .drop) := by
  match n with
  | element i tag as text cs tail =>
      have hsame : Function.update edit t .drop i = edit i :=
        Function.update_of_ne (by simpa using hn) _ edit
      rw [ids, List.nodup_cons] at hnodup
      rw [find?, if_neg (by simpa using hn)] at hkeep
      by_cases hfill : ∃ s ns, edit i = .fill s ns
      · obtain ⟨s, ns, hfill⟩ := hfill
        rw [rewrite_fill hfill, rewrite_fill (hsame.trans hfill),
          remove_element, takeOut_of_not_mem (hfresh i s ns hfill)]
      · have hnot : ∀ s ns, edit i ≠ .fill s ns :=
          fun s ns h => hfill ⟨s, ns, h⟩
        have hcs := takeOut_rewriteAmong text hnodup.2 hkeep hfresh
        rw [rewrite_of_not_fill hnot, rewrite_of_not_fill (by rwa [hsame]),
          remove_element, hcs, hsame]
  | comment i content tail => rw [rewrite, rewrite, remove]

theorem takeOut_rewriteAmong (text : String) {ns : List Node}
    (hnodup : (idsAmong ns).Nodup)
    (hkeep : ∀ m, findAmong? t ns = some m → ∀ i ∈ m.ids, edit i = .keep)
    (hfresh : ∀ i s ns, edit i = .fill s ns → t ∉ idsAmong ns) :
    takeOut t (text ++ (rewriteAmong edit ns).1) (rewriteAmong edit ns).2 =
      (text ++ (rewriteAmong (Function.update edit t .drop) ns).1,
        (rewriteAmong (Function.update edit t .drop) ns).2) := by
  match ns with
  | [] => rw [rewriteAmong, rewriteAmong, takeOut]
  | n :: rest =>
      obtain ⟨hnodupN, hnodupRest, hapart⟩ := List.nodup_append.1 hnodup
      have hkeepRest : ∀ m, findAmong? t rest = some m → ∀ i ∈ m.ids,
          edit i = .keep := fun m hm => hkeep m (findAmong?_of_tail hnodup hm)
      by_cases hid : n.id = t
      · -- The node itself: its tail falls to what stands before it.
        subst hid
        have hkeepN := hkeep n (findAmong?_of_head n.find?_self)
        have hrest : n.id ∉ idsAmong rest :=
          fun h => hapart _ n.id_mem_ids _ h rfl
        rw [rewriteAmong, rewriteAmong, Function.update_self,
          hkeepN _ n.id_mem_ids, rewrite_of_keep hkeepN,
          rewriteAmong_congr (update_of_not_mem_ids hrest)]
        simp only [Edit.isDrop, Bool.false_eq_true, if_false, if_true,
          String.append_empty]
        rw [takeOut_head (by simp), tail_addTail]
      · rw [rewriteAmong, rewriteAmong, Function.update_of_ne hid]
        split
        · -- A node that is out already: its tail stands at the front.
          have ih := takeOut_rewriteAmong (text ++ n.tail) hnodupRest
            hkeepRest hfresh
          simpa only [String.append_assoc] using ih
        · have hn := remove_rewrite hid hnodupN
            (fun m hm => hkeep m (findAmong?_of_head hm)) hfresh
          have ih := takeOut_rewriteAmong "" hnodupRest hkeepRest hfresh
          have honly : t ∈ idsAmong (rewriteAmong edit rest).2 →
              t ∉ ((n.rewrite edit).addTail (rewriteAmong edit rest).1).ids :=
            fun hr hu => by
            rw [ids_addTail] at hu
            exact hapart t (mem_ids_of_mem_rewrite hfresh hu) t
              (mem_idsAmong_of_mem_rewriteAmong hfresh hr) rfl
          have hfront := takeOut_append t (rewriteAmong edit rest).1 ""
            (rewriteAmong edit rest).2
          rw [String.append_empty] at hfront
          simp only [String.empty_append] at ih
          rw [hfront, Prod.mk.injEq] at ih
          rw [takeOut_cons (by simpa using hid) honly, remove_addTail, hn,
            addTail_addTail, ih.1, ih.2]

end

/-- An edit of a rewritten tree is one more edit to rewrite the tree by, if
nothing at or below the edited node has been edited before. -/
theorem applyTo_rewrite {n : Node} (e : Edit) (hnodup : n.ids.Nodup)
    (hkeep : ∀ m, n.find? t = some m → ∀ i ∈ m.ids, edit i = .keep)
      (ht : edit t = .keep)
    (hfresh : ∀ i s ns, edit i = .fill s ns → t ∉ idsAmong ns) :
    e.applyTo t (n.rewrite edit) = n.rewrite (Function.update edit t e) := by
  cases e with
  | keep => rw [Edit.applyTo, ← ht, Function.update_eq_self]
  | put name value => exact change_rewrite rfl hnodup hkeep hfresh
  | erase name => exact change_rewrite rfl hnodup hkeep hfresh
  | fill s ns => exact change_rewrite rfl hnodup hkeep hfresh
  | drop =>
      rw [Edit.applyTo, id_rewrite]
      split
      · next hid =>
          subst hid
          exact (rewrite_drop_top (hkeep n n.find?_self) hnodup).symm
      · next hid => exact remove_rewrite hid hnodup hkeep hfresh

/-! ## Edits that differ in new numbers -/

end Node

/-- An edit with other numbers in what it puts in. -/
def Edit.renumber (f : Nat → Nat) : Edit → Edit
  | fill text children => fill text (Node.renumberAmong f children)
  | e => e

namespace Node

mutual

theorem renumber_rewrite_congr {other : Nat → Edit} {f : Nat → Nat} {n : Node}
    (h : ∀ i ∈ n.ids, (edit i).renumber f = (other i).renumber f) :
    (n.rewrite edit).renumber f = (n.rewrite other).renumber f := by
  match n with
  | element i tag as text cs tail =>
      rw [ids, List.forall_mem_cons] at h
      have hcs := renumber_rewriteAmong_congr h.2
      rw [Prod.mk.injEq] at hcs
      rw [rewrite, rewrite]
      revert h
      cases edit i <;> cases other i <;> intro h <;>
        simp_all [Edit.renumber, renumber, Edit.attributes]
  | comment i content tail => rw [rewrite, rewrite]

theorem renumber_rewriteAmong_congr {other : Nat → Edit} {f : Nat → Nat}
    {ns : List Node}
    (h : ∀ i ∈ idsAmong ns, (edit i).renumber f = (other i).renumber f) :
    ((rewriteAmong edit ns).1, renumberAmong f (rewriteAmong edit ns).2) =
      ((rewriteAmong other ns).1, renumberAmong f
        (rewriteAmong other ns).2) := by
  match ns with
  | [] => rw [rewriteAmong, rewriteAmong]
  | n :: rest =>
      rw [idsAmong, List.forall_mem_append] at h
      have hn := renumber_rewrite_congr h.1
      have hrest := renumber_rewriteAmong_congr h.2
      rw [Prod.mk.injEq] at hrest
      have hdrop : (edit n.id).isDrop = (other n.id).isDrop := by
        have := h.1 _ n.id_mem_ids
        revert this
        cases edit n.id <;> cases other n.id <;> simp [Edit.renumber,
          Edit.isDrop]
      rw [rewriteAmong, rewriteAmong, hdrop]
      split
      · rw [hrest.1, hrest.2]
      · simp only [renumberAmong, renumber_addTail]
        rw [hn, hrest.1, hrest.2]

end

end Node

end SheetBinding
