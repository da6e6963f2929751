import Mathlib.Data.List.Nodup
import SheetBinding.Proofs.Markup.Removal

/-!
# Places and the nodes that stand at them

A place carries its own way up, and nothing in its type says that the parents on
the way have the node below them among their children. The places of a tree are
made so that they do, and whoever moves from one of them up or to the left finds
places that do again: `StandsIn` is this invariant, and everything that is said
here about places is read off it.

What it gives is that numbers tell places apart. A node stands among the nodes
of its tree and is found there by its number; the number of what stands below a
place is among the numbers below its node; and of two siblings, the numbers of
one are not the numbers of the other. So a question about the shape of the tree
becomes a question about a list of numbers in which no number is there twice.
-/

namespace SheetBinding

namespace Node

mutual

/-- A node and all nodes below it, in document order. -/
def nodes : Node → List Node
  | element i tag as text cs tail =>
    element i tag as text cs tail :: nodesAmong cs
  | comment i content tail => [comment i content tail]

/-- Some nodes and all nodes below them, in document order. -/
def nodesAmong : List Node → List Node
  | [] => []
  | n :: rest => n.nodes ++ nodesAmong rest

end

mutual

theorem map_node_placesUnder (levels : List Level) (n : Node) :
    (n.placesUnder levels).map Place.node = n.nodes := by
  match n with
  | element i tag as text cs tail =>
      rw [placesUnder, List.map_cons, map_node_placesAmong, nodes]
  | comment i content tail => rw [placesUnder, nodes]; rfl

theorem map_node_placesAmong (parent : Node) (up : List Level)
    (before ns : List Node) :
    (placesAmong parent up before ns).map Place.node = nodesAmong ns := by
  match ns with
  | [] => rw [placesAmong, nodesAmong]; rfl
  | n :: rest =>
      rw [placesAmong, List.map_append, map_node_placesUnder,
        map_node_placesAmong, nodesAmong]

end

theorem map_id_nodes (n : Node) : n.nodes.map id = n.ids := by
  rw [← map_node_placesUnder [], List.map_map]
  exact map_id_placesUnder [] n

theorem map_id_nodesAmong (ns : List Node) :
    (nodesAmong ns).map id = idsAmong ns := by
  induction ns with
  | nil => rw [nodesAmong, idsAmong]; rfl
  | cons n rest ih =>
      rw [nodesAmong, List.map_append, map_id_nodes, ih, idsAmong]

theorem nodes_eq_cons (n : Node) : n.nodes = n :: nodesAmong n.children := by
  cases n with
  | element i tag as text cs tail => rw [nodes, children]
  | comment i content tail => rw [nodes, children, nodesAmong]

theorem self_mem_nodes (n : Node) : n ∈ n.nodes := by
  rw [nodes_eq_cons]
  exact List.mem_cons_self

theorem nodes_subset_nodesAmong {n : Node} {ns : List Node} (h : n ∈ ns) :
    n.nodes ⊆ nodesAmong ns := by
  induction ns with
  | nil => cases h
  | cons other rest ih =>
      rw [nodesAmong]
      rcases List.mem_cons.1 h with rfl | hrest
      · exact List.subset_append_left _ _
      · exact List.subset_append_of_subset_right _ (ih hrest)

theorem ids_sublist_idsAmong {n : Node} {ns : List Node} (h : n ∈ ns) :
    n.ids.Sublist (idsAmong ns) := by
  induction ns with
  | nil => cases h
  | cons other rest ih =>
      rw [idsAmong]
      rcases List.mem_cons.1 h with rfl | hrest
      · exact List.sublist_append_left _ _
      · exact (ih hrest).trans (List.sublist_append_right _ _)

theorem ids_subset_idsAmong {n : Node} {ns : List Node} (h : n ∈ ns) :
    n.ids ⊆ idsAmong ns :=
  (ids_sublist_idsAmong h).subset

theorem idsAmong_children_subset (n : Node) : idsAmong n.children ⊆ n.ids := by
  rw [ids_eq_cons]
  exact List.subset_cons_self _ _

mutual

theorem nodes_subset_of_mem {n m : Node} (h : m ∈ n.nodes) :
    m.nodes ⊆ n.nodes := by
  match n with
  | element i tag as text cs tail =>
      rw [nodes] at h
      rcases List.mem_cons.1 h with rfl | hbelow
      · rw [nodes]
        exact List.Subset.refl _
      · rw [nodes]
        exact List.subset_cons_of_subset _ (nodes_subset_of_memAmong hbelow)
  | comment i content tail =>
      rw [nodes] at h
      cases List.mem_singleton.1 h
      exact List.Subset.refl _

theorem nodes_subset_of_memAmong {ns : List Node} {m : Node}
    (h : m ∈ nodesAmong ns) :
    m.nodes ⊆ nodesAmong ns := by
  match ns with
  | [] => cases h
  | n :: rest =>
      rw [nodesAmong] at h ⊢
      rcases List.mem_append.1 h with hn | hrest
      · exact List.subset_append_of_subset_left _ (nodes_subset_of_mem hn)
      · exact List.subset_append_of_subset_right _
          (nodes_subset_of_memAmong hrest)

end

theorem mem_nodes_of_mem_children {n m c : Node} (hm : m ∈ n.nodes)
    (hc : c ∈ m.children) :
    c ∈ n.nodes := by
  refine nodes_subset_of_mem hm ?_
  rw [nodes_eq_cons]
  exact List.mem_cons_of_mem _ (nodes_subset_nodesAmong hc c.self_mem_nodes)

mutual

theorem find?_of_mem_nodes {n m : Node} (hnodup : n.ids.Nodup)
    (hm : m ∈ n.nodes) :
    n.find? m.id = some m := by
  match n with
  | element i tag as text cs tail =>
      rw [nodes] at hm
      rcases List.mem_cons.1 hm with rfl | hbelow
      · exact find?_self _
      · rw [ids, List.nodup_cons] at hnodup
        have hid : m.id ∈ idsAmong cs :=
          map_id_nodesAmong cs ▸ List.mem_map_of_mem hbelow
        have hne : i ≠ m.id := fun he => hnodup.1 (he ▸ hid)
        rw [find?, if_neg (by simpa using hne)]
        exact findAmong?_of_mem_nodesAmong hnodup.2 hbelow
  | comment i content tail =>
      rw [nodes] at hm
      cases List.mem_singleton.1 hm
      exact find?_self _

theorem findAmong?_of_mem_nodesAmong {ns : List Node} {m : Node}
    (hnodup : (idsAmong ns).Nodup) (hm : m ∈ nodesAmong ns) :
    findAmong? m.id ns = some m := by
  match ns with
  | [] => cases hm
  | n :: rest =>
      have hparts := hnodup
      rw [idsAmong, List.nodup_append] at hparts
      rw [nodesAmong] at hm
      rcases List.mem_append.1 hm with hn | hrest
      · exact findAmong?_of_head (find?_of_mem_nodes hparts.1 hn)
      · exact findAmong?_of_tail hnodup
          (findAmong?_of_mem_nodesAmong hparts.2.1 hrest)

end

theorem mem_nodes_of_find? {n m : Node} {t : Nat} (hnodup : n.ids.Nodup)
    (h : n.find? t = some m) : m ∈ n.nodes := by
  obtain ⟨hid, hin⟩ := find?_some h
  have ht : t ∈ n.nodes.map id := by
    rw [map_id_nodes]
    exact hin.subset (hid ▸ m.id_mem_ids)
  obtain ⟨other, hother, rfl⟩ := List.mem_map.1 ht
  cases (find?_of_mem_nodes hnodup hother).symm.trans h
  exact hother

mutual

/-- A change that makes nothing of the nodes it is made to. -/
theorem update_eq_self {t : Nat} {change : Node → Node} {n : Node}
    (h : ∀ m ∈ n.nodes, m.id = t → change m = m) : n.update t change = n := by
  match n with
  | element i tag as text cs tail =>
      rw [nodes, List.forall_mem_cons] at h
      rw [update]
      split
      · next hi => exact h.1 (eq_of_beq hi)
      · next hi => rw [updateAmong_eq_self h.2]
  | comment i content tail =>
      rw [nodes, List.forall_mem_singleton] at h
      rw [update]
      split
      · next hi => exact h (eq_of_beq hi)
      · next hi => rfl

theorem updateAmong_eq_self {t : Nat} {change : Node → Node} {ns : List Node}
    (h : ∀ m ∈ nodesAmong ns, m.id = t →
      change m = m) : updateAmong t change ns = ns := by
  match ns with
  | [] => rw [updateAmong]
  | n :: rest =>
      rw [nodesAmong, List.forall_mem_append] at h
      rw [updateAmong, update_eq_self h.1, updateAmong_eq_self h.2]

end

theorem nodup_ids_of_mem_nodes {n m : Node} (hnodup : n.ids.Nodup)
    (hm : m ∈ n.nodes) :
    m.ids.Nodup :=
  hnodup.sublist (find?_some (find?_of_mem_nodes hnodup hm)).2.sublist

/-- No number of a node is there again below it, and no number is there twice
below it. -/
theorem nodup_children_of_mem_nodes {n m : Node} (hnodup : n.ids.Nodup)
    (hm : m ∈ n.nodes) :
    m.id ∉ idsAmong m.children ∧ (idsAmong m.children).Nodup := by
  have h := nodup_ids_of_mem_nodes hnodup hm
  rwa [ids_eq_cons, List.nodup_cons] at h

/-- Siblings share no number, and neither does anything below them. -/
theorem eq_of_mem_ids {ns : List Node} {m n : Node} {t : Nat}
    (hnodup : (idsAmong ns).Nodup) (hm : m ∈ ns) (hn : n ∈ ns) (htm : t ∈ m.ids)
    (htn : t ∈ n.ids) : m = n := by
  induction ns with
  | nil => cases hm
  | cons first rest ih =>
      rw [idsAmong, List.nodup_append] at hnodup
      obtain ⟨-, hrest, hdisjoint⟩ := hnodup
      rcases List.mem_cons.1 hm with rfl | hm'
      · rcases List.mem_cons.1 hn with rfl | hn'
        · rfl
        · exact absurd rfl (hdisjoint t htm t (ids_subset_idsAmong hn' htn))
      · rcases List.mem_cons.1 hn with rfl | hn'
        · exact absurd rfl (hdisjoint t htn t (ids_subset_idsAmong hm' htm))
        · exact ih hrest hm' hn'

end Node

namespace Place

open Node

/-! ## The way up -/

theorem ancestors_cons (n : Node) (level : Level) (up : List Level) :
    ancestors ⟨n, level :: up⟩ =
      ⟨level.parent, up⟩ :: ancestors ⟨level.parent, up⟩ := rfl

theorem parent?_eq_head? (p : Place) : p.parent? = p.ancestors.head? := by
  obtain ⟨n, levels⟩ := p
  cases levels <;> rfl

theorem mem_ancestors_of_parent? {p q : Place} (h : p.parent? = some q) :
    q ∈ p.ancestors := by
  rw [parent?_eq_head?] at h
  exact List.mem_of_head? h

theorem ancestors_subset_of_mem {p q : Place} (h : q ∈ p.ancestors) :
    q.ancestors ⊆ p.ancestors := by
  obtain ⟨n, levels⟩ := p
  induction levels generalizing n with
  | nil => cases h
  | cons level up ih =>
      rw [ancestors_cons] at h ⊢
      rcases List.mem_cons.1 h with rfl | h
      · exact List.subset_cons_self _ _
      · exact List.subset_cons_of_subset _ (ih _ h)

mutual

/-- A place under a node is that of the node, or has it among its ancestors. -/
theorem eq_or_mem_ancestors {n : Node} {levels : List Level} {p : Place}
    (h : p ∈ n.placesUnder levels) : ⟨n, levels⟩ = p ∨
      ⟨n, levels⟩ ∈ p.ancestors := by
  match n with
  | element i tag as text cs tail =>
      rw [placesUnder] at h
      rcases List.mem_cons.1 h with rfl | hbelow
      · exact .inl rfl
      · exact .inr (mem_ancestors_of_mem_placesAmong hbelow)
  | comment i content tail =>
      rw [placesUnder] at h
      exact .inl (List.mem_singleton.1 h).symm

theorem mem_ancestors_of_mem_placesAmong {parent : Node} {up : List Level}
    {before ns : List Node} {p : Place}
    (h : p ∈ placesAmong parent up before ns) : ⟨parent, up⟩ ∈ p.ancestors := by
  match ns with
  | [] => cases h
  | n :: rest =>
      rw [placesAmong] at h
      rcases List.mem_append.1 h with hn | hrest
      · have habove : (⟨parent, up⟩ : Place) ∈
            ancestors ⟨n, ⟨parent, before, rest⟩ :: up⟩ := by
          rw [ancestors_cons]
          exact List.mem_cons_self
        rcases eq_or_mem_ancestors hn with rfl | hn
        · exact habove
        · exact ancestors_subset_of_mem hn habove
      · exact mem_ancestors_of_mem_placesAmong hrest

end

/-! ## Places of children -/

theorem self_mem_placesUnder (n : Node) (levels : List Level) :
    ⟨n, levels⟩ ∈ n.placesUnder levels := by
  cases n <;> (rw [placesUnder]; exact List.mem_cons_self)

theorem exists_mem_placesAmong {ns : List Node} {c : Node} (parent : Node)
    (up : List Level) (before : List Node) (hc : c ∈ ns) :
    ∃ p ∈ placesAmong parent up before ns, p.node = c ∧
      p.parent? = some ⟨parent, up⟩ := by
  induction ns generalizing before with
  | nil => cases hc
  | cons n rest ih =>
      rw [placesAmong]
      rcases List.mem_cons.1 hc with rfl | hrest
      · exact ⟨_, List.mem_append_left _ (self_mem_placesUnder c _), rfl, rfl⟩
      · obtain ⟨p, hp, hnode, hparent⟩ := ih (n :: before) hrest
        exact ⟨p, List.mem_append_right _ hp, hnode, hparent⟩

mutual

/-- Every child of a node below another has a place there, and its parent is the
place of the node. -/
theorem exists_child_placesUnder {n m c : Node} (levels : List Level)
    (hm : m ∈ n.nodes) (hc : c ∈ m.children) :
    ∃ p ∈ n.placesUnder levels, p.node = c ∧ ∃ q, p.parent? = some q ∧
      q.node = m := by
  match n with
  | element i tag as text cs tail =>
      rw [nodes] at hm
      rw [placesUnder]
      rcases List.mem_cons.1 hm with rfl | hbelow
      · obtain ⟨p, hp, hnode, hparent⟩ :=
          exists_mem_placesAmong (element i tag as text cs tail) levels [] hc
        exact ⟨p, List.mem_cons_of_mem _ hp, hnode, _, hparent, rfl⟩
      · obtain ⟨p, hp, hplace⟩ :=
          exists_child_placesAmong (element i tag as text cs tail) levels
            [] hbelow hc
        exact ⟨p, List.mem_cons_of_mem _ hp, hplace⟩
  | comment i content tail =>
      rw [nodes] at hm
      cases List.mem_singleton.1 hm
      cases hc

theorem exists_child_placesAmong {ns : List Node} {m c : Node} (parent : Node)
    (up : List Level) (before : List Node) (hm : m ∈ nodesAmong ns)
    (hc : c ∈ m.children) :
    ∃ p ∈ placesAmong parent up before ns,
      p.node = c ∧ ∃ q, p.parent? = some q ∧ q.node = m := by
  match ns with
  | [] => cases hm
  | n :: rest =>
      rw [nodesAmong] at hm
      rw [placesAmong]
      rcases List.mem_append.1 hm with hn | hrest
      · obtain ⟨p, hp, hplace⟩ :=
          exists_child_placesUnder (⟨parent, before, rest⟩ :: up) hn hc
        exact ⟨p, List.mem_append_left _ hp, hplace⟩
      · obtain ⟨p, hp, hplace⟩ :=
          exists_child_placesAmong parent up (n :: before) hrest hc
        exact ⟨p, List.mem_append_right _ hp, hplace⟩

end

/-! ## Siblings to the left -/

/-- One place is a sibling of another and stands to the left of it. -/
def Precedes (q p : Place) : Prop :=
  ∃ left right up, q.levels = left :: up ∧ p.levels = right :: up ∧
    left.parent = right.parent ∧ q.node :: left.before <:+ right.before

theorem Precedes.trans {o q p : Place} (hoq : o.Precedes q)
    (hqp : q.Precedes p) :
    o.Precedes p := by
  obtain ⟨first, second, up, ho, hq, hparent, hsuffix⟩ := hoq
  obtain ⟨second', third, up', hq', hp, hparent', hsuffix'⟩ := hqp
  cases hq.symm.trans hq'
  exact ⟨first, third, up, ho, hp, hparent.trans hparent',
    hsuffix.trans ((List.suffix_cons _ _).trans hsuffix')⟩

theorem Precedes.ancestors_eq {q p : Place} (h : q.Precedes p) :
    q.ancestors = p.ancestors := by
  obtain ⟨left, right, up, hq, hp, hparent, -⟩ := h
  rw [ancestors, ancestors, hq, hp, ancestorsOf, ancestorsOf, hparent]

/-- Going left from a node, every place that is met has what is left of it
before it and all the rest after it. -/
theorem of_mem_leftward {parent : Node} {up : List Level}
    {after before : List Node} {q : Place}
    (h : q ∈ leftward parent up after before) :
    ∃ level, q.levels = level :: up ∧ level.parent = parent ∧
      q.node :: level.before <:+ before ∧
      before.reverse ++ after =
        level.before.reverse ++ q.node :: level.after := by
  induction before generalizing after with
  | nil => cases h
  | cons n rest ih =>
      rw [leftward] at h
      rcases List.mem_cons.1 h with rfl | h
      · exact ⟨_, rfl, rfl, List.suffix_rfl, by simp⟩
      · obtain ⟨level, hlevels, hparent, hsuffix, hall⟩ := ih h
        exact ⟨level, hlevels, hparent, hsuffix.trans (List.suffix_cons _ _),
          by simp [← hall]⟩

theorem precedes_of_mem_preceding {q p : Place} (h : q ∈ p.preceding) :
    q.Precedes p := by
  obtain ⟨n, levels⟩ := p
  cases levels with
  | nil => cases h
  | cons level up =>
      obtain ⟨left, hlevels, hparent, hsuffix, -⟩ := of_mem_leftward h
      exact ⟨left, level, up, hlevels, rfl, hparent, hsuffix⟩

/-! ## Places of a tree -/

/-- A place whose way up is a way in the tree: every parent on it has the node
below it among its children, between the siblings that the place knows of, and
the last parent is the top. -/
inductive StandsIn (root : Node) : Place → Prop
  | top : StandsIn root ⟨root, []⟩
  | beneath {n : Node} {level : Level} {up : List Level} :
      level.parent.children = level.before.reverse ++ n :: level.after →
        StandsIn root ⟨level.parent, up⟩ → StandsIn root ⟨n, level :: up⟩

variable {root : Node} {p q a : Place}

mutual

theorem standsIn_placesUnder {n : Node} {levels : List Level}
    (h : StandsIn root ⟨n, levels⟩) (hp : p ∈ n.placesUnder levels) :
    StandsIn root p := by
  match n with
  | element i tag as text cs tail =>
      rw [placesUnder] at hp
      rcases List.mem_cons.1 hp with rfl | hbelow
      · exact h
      · exact standsIn_placesAmong h rfl hbelow
  | comment i content tail =>
      rw [placesUnder] at hp
      cases List.mem_singleton.1 hp
      exact h

theorem standsIn_placesAmong {parent : Node} {up : List Level}
    {before ns : List Node} (h : StandsIn root ⟨parent, up⟩)
    (hchildren : parent.children = before.reverse ++ ns)
    (hp : p ∈ placesAmong parent up before ns) : StandsIn root p := by
  match ns with
  | [] => cases hp
  | n :: rest =>
      rw [placesAmong] at hp
      rcases List.mem_append.1 hp with hn | hrest
      · exact standsIn_placesUnder (.beneath hchildren h) hn
      · exact standsIn_placesAmong h (by simpa using hchildren) hrest

end

theorem standsIn_of_mem_places (h : p ∈ root.places) : StandsIn root p :=
  standsIn_placesUnder .top h

theorem StandsIn.of_mem_ancestors (h : StandsIn root p) (ha : a ∈ p.ancestors) :
    StandsIn root a := by
  induction h with
  | top => cases ha
  | beneath hchildren hparent ih =>
      rw [ancestors_cons] at ha
      rcases List.mem_cons.1 ha with rfl | ha
      · exact hparent
      · exact ih ha

theorem StandsIn.of_mem_preceding (h : StandsIn root p) (hq : q ∈ p.preceding) :
    StandsIn root q := by
  cases h with
  | top => cases hq
  | beneath hchildren hparent =>
      obtain ⟨left, hlevels, hsame, -, hall⟩ := of_mem_leftward hq
      obtain ⟨n, levels⟩ := q
      cases hlevels
      refine .beneath ?_ (hsame ▸ hparent)
      rw [hsame, hchildren, hall]

theorem StandsIn.node_mem_children (h : StandsIn root p)
    (hq : p.parent? = some q) :
    p.node ∈ q.node.children := by
  cases h with
  | top => cases hq
  | beneath hchildren hparent =>
      cases hq
      rw [hchildren]
      exact List.mem_append_right _ List.mem_cons_self

theorem StandsIn.node_mem_nodes (h : StandsIn root p) :
    p.node ∈ root.nodes := by
  induction h with
  | top => exact root.self_mem_nodes
  | beneath hchildren hparent ih =>
      exact mem_nodes_of_mem_children ih
        (StandsIn.node_mem_children (.beneath hchildren hparent) rfl)

theorem StandsIn.find?_eq (h : StandsIn root p) (hnodup : root.ids.Nodup) :
    root.find? p.id = some p.node :=
  find?_of_mem_nodes hnodup h.node_mem_nodes

theorem StandsIn.ids_subset (h : StandsIn root p) (ha : a ∈ p.ancestors) :
    p.node.ids ⊆ idsAmong a.node.children := by
  induction h with
  | top => cases ha
  | @beneath n level up hchildren hparent ih =>
      have hn : n.ids ⊆ idsAmong level.parent.children :=
        ids_subset_idsAmong (StandsIn.node_mem_children
          (.beneath hchildren hparent) rfl)
      rw [ancestors_cons] at ha
      rcases List.mem_cons.1 ha with rfl | ha
      · exact hn
      · exact List.Subset.trans hn
          (List.Subset.trans (idsAmong_children_subset _) (ih ha))

theorem StandsIn.id_mem_ids (h : StandsIn root p)
    (ha : a = p ∨ a ∈ p.ancestors) :
    p.id ∈ a.node.ids := by
  rcases ha with rfl | ha
  · exact a.node.id_mem_ids
  · exact idsAmong_children_subset _ (h.ids_subset ha p.node.id_mem_ids)

/-- No number at or below a place is one at or below a sibling to the left of
it. -/
theorem StandsIn.not_mem_ids (h : StandsIn root p) (hnodup : root.ids.Nodup)
    (hq : q.Precedes p) {t : Nat} (ht : t ∈ p.node.ids) : t ∉ q.node.ids := by
  cases h with
  | top =>
      obtain ⟨_, _, _, _, hlevels, _⟩ := hq
      cases hlevels
  | @beneath n level up hchildren hparent =>
      obtain ⟨_, _, _, _, hlevels, _, hsuffix⟩ := hq
      cases hlevels
      have hsiblings :=
        (nodup_children_of_mem_nodes hnodup hparent.node_mem_nodes).2
      rw [hchildren, idsAmong_append] at hsiblings
      have hdisjoint := (List.nodup_append.1 hsiblings).2.2
      have hbefore : q.node ∈ level.before.reverse :=
        List.mem_reverse.2 (hsuffix.subset List.mem_cons_self)
      have hright : t ∈ idsAmong (n :: level.after) :=
        ids_subset_idsAmong List.mem_cons_self ht
      exact fun hleft => hdisjoint t (ids_subset_idsAmong hbefore hleft) t
        hright rfl

end Place

/-! ## Nodes of a document -/

namespace Document

open Node

variable {doc : Document} {node : Node} {t : Nat}

theorem exists_topOf?_of_find? (h : doc.find? t = some node) :
    ∃ top ∈ doc.trees, doc.topOf? t = some top ∧ top.find? t = some node := by
  change doc.trees.findSome? (·.find? t) = some node at h
  rw [topOf?]
  generalize doc.trees = tops at h ⊢
  induction tops with
  | nil => cases h
  | cons top rest ih =>
      rw [List.findSome?_cons] at h
      cases hfind : top.find? t with
      | some m =>
          rw [hfind] at h
          cases h
          exact ⟨top, List.mem_cons_self,
            List.find?_cons_of_pos (by rw [hfind]; rfl), hfind⟩
      | none =>
          rw [hfind] at h
          obtain ⟨other, hother, htop, hm⟩ := ih h
          refine ⟨other, List.mem_cons_of_mem _ hother, ?_, hm⟩
          rw [List.find?_cons_of_neg (by rw [hfind]; exact Bool.false_ne_true),
            htop]

theorem WellNumbered.nodup_of_mem_trees {top : Node} (hdoc : doc.WellNumbered)
    (h : top ∈ doc.trees) : top.ids.Nodup :=
  hdoc.nodup.sublist (ids_sublist_idsAmong h)

theorem WellNumbered.find?_of_mem_nodes (hdoc : doc.WellNumbered)
    (h : doc.find? t = some node) {n : Node} (hn : n ∈ node.nodes) :
    doc.find? n.id = some n := by
  obtain ⟨top, htop, -, hnode⟩ := exists_topOf?_of_find? h
  have hin : n ∈ top.nodes :=
    nodes_subset_of_mem (mem_nodes_of_find? (hdoc.nodup_of_mem_trees htop)
      hnode) hn
  rw [find?_eq_findAmong?]
  exact findAmong?_of_mem_nodesAmong hdoc.nodup
    (nodes_subset_nodesAmong htop hin)

theorem WellNumbered.update_eq_self {change : Node → Node}
    (hdoc : doc.WellNumbered) (h : doc.find? t = some node)
    (hchange : change node = node) : doc.update t change = doc := by
  have htrees : (doc.update t change).trees = doc.trees := by
    rw [trees_update]
    refine updateAmong_eq_self fun m hm hid => ?_
    have hfind := findAmong?_of_mem_nodesAmong hdoc.nodup hm
    rw [hid, ← find?_eq_findAmong?, h] at hfind
    cases hfind
    exact hchange
  obtain ⟨hroot, hdetached⟩ := List.cons.inj htrees
  obtain ⟨root, detached, nextId⟩ := doc
  exact congrArg₂ (Document.mk · · nextId) hroot hdetached

theorem WellNumbered.nodup_ids_of_find? (hdoc : doc.WellNumbered)
    (h : doc.find? t = some node) :
    node.ids.Nodup := by
  obtain ⟨top, htop, -, hnode⟩ := exists_topOf?_of_find? h
  have hnodup := hdoc.nodup_of_mem_trees htop
  exact nodup_ids_of_mem_nodes hnodup (mem_nodes_of_find? hnodup hnode)

end Document

end SheetBinding
