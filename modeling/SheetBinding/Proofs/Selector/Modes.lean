import SheetBinding.Proofs.Selector.Scope
import SheetBinding.Proofs.Selector.Tests

/-!
# The two modes of a search

A search at and below its scope and a search among the children of the scope
differ in two things only: where the first compound of a chain may stand, and
which axis `:scope` takes its first element from. No other test looks at the
axis, so without `:scope` the compounds of a chain hold at the same places in
both modes (`Compound.holds_of_axis`, `Complex.holds_of_axis`).

What is left is the start. A child of the scope is a place below it, so whatever
starts in the narrow mode may start in the wide one, and ends at the same
places. A chain that is one compound ends where it starts, and then the narrow
mode is the wide one with the children picked out.
-/

namespace SheetBinding

open Node Place

/-- A place of a tree is that of a child of a node just when its parent has the
number of the node. -/
theorem Place.id_mem_children_iff {tree node : Node} {scope : Nat} {p : Place}
    (hnodup : tree.ids.Nodup) (hfind : tree.find? scope = some node) (hp : p ∈
      tree.places) :
    p.id ∈ node.children.map Node.id ↔
      ∃ q, p.parent? = some q ∧ q.id = scope := by
  constructor
  · intro hid
    obtain ⟨c, hc, hcid⟩ := List.mem_map.1 hid
    obtain ⟨r, hr, hrnode, q, hparent, hqnode⟩ :=
      exists_child_placesUnder [] (mem_nodes_of_find? hnodup hfind) hc
    have hsame : r.id = p.id := by
      rw [Place.id, hrnode, hcid]
    have hids : (tree.places.map Place.id).Nodup := by
      rwa [places, selfAndBelow, top, map_id_placesUnder]
    cases List.inj_on_of_nodup_map hids hr hp hsame
    refine ⟨q, hparent, ?_⟩
    rw [Place.id, hqnode]
    exact (find?_some hfind).1
  · intro hparent
    obtain ⟨q, hq, hid⟩ := hparent
    have hpTree := standsIn_of_mem_places hp
    have hqTree := hpTree.of_mem_ancestors (mem_ancestors_of_parent? hq)
    have hqnode : q.node = node :=
      Selector.node_eq_of_id hnodup hfind hqTree hid
    exact List.mem_map_of_mem (hqnode ▸ hpTree.node_mem_children hq)

namespace Selector

/-! ## Tests and the axis -/

/-- A condition asks for the scope. -/
def Condition.isScope : Condition → Bool
  | .pseudo .scope => true
  | _ => false

/-- A chain has a condition that asks for the scope. -/
def Complex.asksScope (chain : Complex) : Bool :=
  chain.tests.any Condition.isScope

/-- Whether a selector asks anywhere for the first element where a search
begins. -/
def asksScope (s : Selector) : Bool :=
  s.group.any Complex.asksScope

theorem followsWays_id : FollowsWays fun p => p :=
  ⟨fun _ => rfl, fun _ => rfl, fun _ _ => (List.map_id' _).symm,
    fun _ _ => (List.map_id' _).symm⟩

variable {here there : List Place}

theorem Condition.agreesAlong_id {c : Condition} (htest : c.isTest = true)
    (hscope : c.isScope = false) : c.AgreesAlong (fun p => p) here there := by
  intro element p
  cases c with
  | pseudo pseudoClass => cases pseudoClass <;> first | rfl | cases hscope
  | not | anyOf | has => cases htest
  | _ => rfl

theorem allAgree_id {tests : List Condition}
    (h : tests.any Condition.isScope = false) :
    AllAgree (fun p => p) here there tests := by
  intro t ht htest
  rw [List.any_eq_false] at h
  exact Condition.agreesAlong_id htest (Bool.eq_false_iff.2 (h t ht))

theorem Compound.holds_of_axis {compound : Compound}
    (h : compound.tests.any Condition.isScope = false) (p : Place) :
    compound.holds there p = compound.holds here p :=
  Compound.holds_map followsWays_id (allAgree_id h)

theorem Complex.holds_of_axis {chain : Complex} {start : Place → Bool}
    (h : chain.asksScope = false) (p : Place) :
    chain.holds there start p = chain.holds here start p :=
  Complex.holds_map followsWays_id (allAgree_id h) fun _ => rfl

/-! ## The start of a chain -/

section Start

variable {tree : Node} {scope : Nat} {p : Place} {chain : Complex}
  {group : Group}

theorem onAxis_true_of_false (h : onAxis scope false p = true) :
    onAxis scope true p = true := by
  obtain ⟨q, hq, hid⟩ := onAxis_false_iff.1 h
  exact onAxis_true_iff.2 (.inr ⟨q, mem_ancestors_of_parent? hq, hid⟩)

theorem Complex.holds_true_of_false (hscope : chain.asksScope = false)
    (h : chain.holds (axis tree scope false) (onAxis scope false) p = true) :
    chain.holds (axis tree scope true) (onAxis scope true) p = true := by
  obtain ⟨o, hstart, -, hsame⟩ := chain.exists_start h
  have hwide := hsame _ (onAxis_true_of_false hstart)
  rwa [Complex.holds_of_axis hscope] at hwide

theorem Complex.holds_false_eq (hscope : chain.asksScope = false)
    (hsingle : chain.opening? = none) :
    chain.holds (axis tree scope false) (onAxis scope false) p =
      (onAxis scope false p && chain.holds (axis tree scope true)
        (onAxis scope true) p) := by
  match chain with
  | .join left combinator compound =>
      rw [opening?, Option.or_eq_none_iff] at hsingle
      cases hsingle.2
  | .single compound =>
      rw [asksScope, Complex.tests] at hscope
      rw [Complex.holds, Complex.holds, Compound.holds_of_axis hscope p]
      cases hstart : onAxis scope false p with
      | false => rfl
      | true => rw [onAxis_true_of_false hstart, Bool.true_and, Bool.true_and]

theorem Group.select_false_sublist
    (hscope : ∀ chain ∈ group, chain.asksScope = false) :
    (group.select tree scope false).Sublist (group.select tree scope true) := by
  refine List.monotone_filter_right _ fun p h => ?_
  obtain ⟨chain, hchain, hholds⟩ := List.any_eq_true.1 h
  have hwide := Complex.holds_true_of_false (hscope chain hchain) hholds
  exact List.any_eq_true.2 ⟨chain, hchain, hwide⟩

theorem Group.any_false_eq (hscope : ∀ chain ∈ group, chain.asksScope = false)
    (hsingle : ∀ chain ∈ group, chain.opening? = none) :
    (group.any fun chain => chain.holds (axis tree scope false)
      (onAxis scope false) p) =
      (onAxis scope false p &&
        group.any fun chain => chain.holds (axis tree scope true)
          (onAxis scope true) p) := by
  induction group with
  | nil => simp
  | cons chain rest ih =>
      rw [List.forall_mem_cons] at hscope hsingle
      rw [List.any_cons, List.any_cons, ih hscope.2 hsingle.2,
        Complex.holds_false_eq hscope.1 hsingle.1, Bool.and_or_distrib_left]

/-- Chains that are single compounds select among the children of the scope what
they select at children of the scope anyway. -/
theorem Group.select_false_eq {node : Node} (hnodup : tree.ids.Nodup)
    (hfind : tree.find? scope = some node)
    (hscope : ∀ chain ∈ group, chain.asksScope = false)
    (hsingle : ∀ chain ∈ group, chain.opening? = none) :
    group.select tree scope false =
      (group.select tree scope true).filter fun p =>
        (node.children.map Node.id).contains p.id := by
  rw [select, select, List.filter_filter]
  refine List.filter_congr fun p hp => ?_
  have hchild : (node.children.map Node.id).contains p.id =
      onAxis scope false p := by
    rw [Bool.eq_iff_iff, List.contains_iff_mem, onAxis_false_iff]
    exact Place.id_mem_children_iff hnodup hfind hp
  rw [Group.any_false_eq hscope hsingle, hchild]

end Start

/-- Without `:scope`, a search among the children of a node finds nothing that a
search at and below the node does not find, and keeps its order. If no chain has
a combinator, it finds just the children of the node among what the other search
finds. -/
theorem search?_modes {s : Selector} {tree node : Node} {scope : Nat}
    (hscope : s.asksScope = false) (hdeclared : s.hasUndeclaredPrefix = false)
    (hnodup : tree.ids.Nodup) (hfind : tree.find? scope = some node) :
    ∃ wide narrow, s.search? tree scope true = some wide ∧
      s.search? tree scope false = some narrow ∧
      narrow.Sublist wide ∧
      ((∀ chain ∈ s.group, chain.opening? = none) →
        narrow = wide.filter fun p =>
          (node.children.map Node.id).contains p.id) := by
  have hsearch : ∀ descendants, s.search? tree scope descendants =
      some (s.group.select tree scope descendants) := fun descendants => by
    rw [search?, hdeclared]
    rfl
  have hchains : ∀ chain ∈ s.group, chain.asksScope = false :=
    fun chain hchain =>
    Bool.eq_false_iff.2 (List.any_eq_false.1 hscope chain hchain)
  refine ⟨_, _, hsearch true, hsearch false, Group.select_false_sublist hchains,
    ?_⟩
  intro hsingle
  exact Group.select_false_eq hnodup hfind hchains hsingle

/-- Two chains without combinators. -/
def lastChildOrNote : Selector :=
  ⟨":last-child, p",
    [.single (.mk .any [.pseudo .lastChild]), .single (.ofTag "p")]⟩

theorem search?_modes_list :
    lastChildOrNote.asksScope = false ∧
      lastChildOrNote.hasUndeclaredPrefix = false ∧
      listAndNote.ids.Nodup ∧ listAndNote.find? 0 = some listAndNote ∧
      (∀ chain ∈ lastChildOrNote.group, chain.opening? = none) ∧
      ∃ wide narrow, lastChildOrNote.search? listAndNote 0 true = some wide ∧
        lastChildOrNote.search? listAndNote 0 false = some narrow ∧
        narrow.Sublist wide ∧
        narrow = wide.filter fun p =>
          (listAndNote.children.map Node.id).contains p.id := by
  have hscope : lastChildOrNote.asksScope = false := by decide
  have hdeclared : lastChildOrNote.hasUndeclaredPrefix = false := by decide
  have hnodup : listAndNote.ids.Nodup := by decide
  have hfind : listAndNote.find? 0 = some listAndNote := rfl
  have hsingle : ∀ chain ∈ lastChildOrNote.group, chain.opening? = none := by
    intro chain hchain
    obtain rfl | rfl : chain = _ ∨ chain = _ := by
      simpa [lastChildOrNote] using hchain
    · rfl
    · rfl
  obtain ⟨wide, narrow, hwide, hnarrow, hsub, heq⟩ :=
    search?_modes hscope hdeclared hnodup hfind
  exact ⟨hscope, hdeclared, hnodup, hfind, hsingle, wide, narrow, hwide,
    hnarrow, hsub, heq hsingle⟩

end Selector

end SheetBinding
