import Mathlib.Data.List.Pairwise
import SheetBinding.Form
import SheetBinding.Proofs.Result
import SheetBinding.Proofs.Selector.Scope

/-!
# Which inputs groups are captured from

What an input of a group is, is said twice: by the selector that a capture
searches with, and by the checks that every item passes when it is made. The
selector compares the tag and the type as they are written and is content with a
name that is empty; the checks let case and blanks pass and are not.
`capture_agrees_iff` says on which forms this makes no difference.

A search from a form goes through the form and what is below it and nothing else
(`Selector.map_node_onAxis`), and the chains of this selector have one compound
each, so a capture starts from the nodes of the form at which one test holds
(`map_node_select_inputs`). They are grouped by a recursion that puts the first
node in front of the group that the rest has for its name. That makes a
partition of them, each group in document order and the groups in the order in
which their names appear (`isPartition_groupOf`).
-/

namespace SheetBinding

open Node Selector

/-! ## The two tests of an input -/

theorem InputItem.ofNode_eq_ok_iff {n : Node} {item : InputItem} :
    ofNode n = .ok item ↔
      Text.lowercase (n.tag?.getD "") = "input" ∧
        (kindOf n = "radio" ∨ kindOf n = "checkbox") ∧
        (n.attribute? "name").getD "" ≠ "" ∧
        item = ⟨n.id, kindOf n == "radio"⟩ := by
  simp only [ofNode]
  split
  · next htag => simp only [bne_iff_ne] at htag; simp [htag]
  · next htag =>
      simp only [bne_iff_ne, not_not] at htag
      split
      · next hkind =>
          simp only [Bool.and_eq_true, bne_iff_ne] at hkind
          simp [hkind]
      · next hkind =>
          simp only [Bool.and_eq_true, bne_iff_ne, not_and_or, not_not] at hkind
          split
          · next hname => simp only [beq_iff_eq] at hname; simp [hname]
          · next hname =>
              simp only [beq_iff_eq] at hname
              have hkind' : kindOf n = "radio" ∨ kindOf n = "checkbox" := hkind
              simp only [Except.ok.injEq, htag, hkind', ne_eq, hname,
                not_false_eq_true, true_and]
              exact eq_comm

namespace ButtonGroup

/-- The type of a node is written as one of those that groups take. -/
def hasWrittenType (n : Node) : Bool :=
  n.attribute? "type" == some "radio" || n.attribute? "type" == some "checkbox"

/-- Whether the selector of a capture holds at a node. -/
def takes (n : Node) : Bool :=
  n.tag? == some "input" && hasWrittenType n && (n.attribute? "name").isSome

/-- The nodes below a node, and itself, that groups take. -/
def inputsOf (node : Node) : List Node :=
  node.nodes.filter takes

/-- The input that a node is which groups take. -/
def itemOf (n : Node) : InputItem :=
  ⟨n.id, n.attribute? "type" == some "radio"⟩

theorem mem_inputsOf {node n : Node} :
    n ∈ inputsOf node ↔ n ∈ node.nodes ∧ takes n = true :=
  List.mem_filter

theorem any_holds_inputs (axis : List Place) (start : Place → Bool)
    (p : Place) :
    (inputs.any fun chain => chain.holds axis start p) =
      (start p && takes p.node) := by
  simp only [inputs, List.any_cons, List.any_nil, Complex.holds, Compound.holds,
    Condition.allHold, Condition.holds, AttributeTest.holds,
    AttributeRelation.holds, ElementTest.holds, Place.tag?, Place.attribute?,
    takes, hasWrittenType]
  cases start p <;> cases p.node.tag? == some "input" <;>
    cases p.node.attribute? "type" == some "radio" <;>
    cases p.node.attribute? "type" == some "checkbox" <;>
    cases (p.node.attribute? "name").isSome <;> rfl

theorem map_node_select_inputs {tree node : Node} {form : Nat}
    (hnodup : tree.ids.Nodup) (hfind : tree.find? form = some node) :
    (inputs.select tree form true).map Place.node = inputsOf node := by
  have hselect : inputs.select tree form true =
      (tree.places.filter (onAxis form true)).filter (takes ∘ Place.node) := by
    rw [Group.select, List.filter_filter]
    refine List.filter_congr fun p _ => ?_
    rw [any_holds_inputs, Bool.and_comm]
    rfl
  rw [hselect, ← List.filter_map, map_node_onAxis hnodup hfind, inputsOf]

theorem capture_eq {doc : Document} {form : Nat} {node : Node}
    (hdoc : doc.WellNumbered) (hform : doc.find? form = some node) :
    capture doc form = (groupByName (inputsOf node)).mapM fun group =>
      ofNodes form group.1 group.2 := by
  obtain ⟨top, hmem, htop, hnode⟩ := Document.exists_topOf?_of_find? hform
  rw [capture, htop, Option.getD_some]
  dsimp only
  rw [map_node_select_inputs (hdoc.nodup_of_mem_trees hmem) hnode]

theorem ofNode_of_takes {n : Node} (h : takes n = true)
    (hname : n.attribute? "name" ≠ some "") :
    InputItem.ofNode n = .ok (itemOf n) := by
  simp only [takes, hasWrittenType, Bool.and_eq_true, Bool.or_eq_true,
    beq_iff_eq, Option.isSome_iff_exists] at h
  obtain ⟨⟨htag, htype⟩, name, hsome⟩ := h
  have hnonempty : (n.attribute? "name").getD "" ≠ "" := by
    rw [hsome] at hname ⊢
    exact fun hempty => hname (congrArg some hempty)
  have hinput : Text.lowercase (n.tag?.getD "") = "input" := by
    rw [htag]; decide +kernel
  have hkind : some (InputItem.kindOf n) = n.attribute? "type" := by
    rw [InputItem.kindOf]
    rcases htype with htype | htype <;> (rw [htype]; decide +kernel)
  rw [← hkind, Option.some.injEq, Option.some.injEq] at htype
  rw [InputItem.ofNode_eq_ok_iff, itemOf, ← hkind, Option.some_beq_some]
  exact ⟨hinput, htype, hnonempty, rfl⟩

theorem name_ne_of_ofNode {n : Node} {item : InputItem}
    (h : InputItem.ofNode n = .ok item) :
    n.attribute? "name" ≠ some "" := by
  intro hname
  obtain ⟨-, -, hnonempty, -⟩ := InputItem.ofNode_eq_ok_iff.1 h
  rw [hname] at hnonempty
  exact hnonempty rfl

/-! ## The grouping -/

theorem eraseDups_filter {α : Type} [BEq α] [LawfulBEq α] (p : α → Bool)
    (l : List α) :
    (l.filter p).eraseDups = l.eraseDups.filter p := by
  match l with
  | [] => rfl
  | a :: rest =>
      have ih := eraseDups_filter p (rest.filter fun b => !b == a)
      rw [List.eraseDups_cons, List.filter_cons, List.filter_cons]
      split
      · rw [List.eraseDups_cons, ← ih, List.filter_filter, List.filter_filter]
        simp only [Bool.and_comm]
      · next ha =>
          -- Where `p` drops the first element it drops all that are equal to
          -- it, so that they are erased on the right as well does not show.
          rw [← ih, List.filter_filter]
          congr 1
          refine List.filter_congr fun b _ => ?_
          cases hb : p b with
          | false => rfl
          | true =>
              have hne : (b == a) = false := by
                rw [beq_eq_false_iff_ne]
                exact fun he => ha (he ▸ hb)
              rw [hne]
              rfl
termination_by l.length
decreasing_by exact Nat.lt_succ_of_le (List.length_filter_le ..)

theorem nodup_eraseDups {α : Type} [BEq α] [LawfulBEq α] (l : List α) :
    l.eraseDups.Nodup := by
  match l with
  | [] => exact List.nodup_nil
  | a :: rest =>
      rw [List.eraseDups_cons, List.nodup_cons]
      refine ⟨fun hmem => ?_, nodup_eraseDups _⟩
      rw [List.mem_eraseDups, List.mem_filter] at hmem
      simp at hmem
termination_by l.length
decreasing_by exact Nat.lt_succ_of_le (List.length_filter_le ..)

/-- The nodes that have a name. -/
def named (name : String) (ns : List Node) : List Node :=
  ns.filter (nameOf · == name)

theorem mem_named {name : String} {ns : List Node} {n : Node} :
    n ∈ named name ns ↔ n ∈ ns ∧ nameOf n = name := by
  rw [named, List.mem_filter, beq_iff_eq]

theorem named_cons_self (n : Node) (rest : List Node) :
    named (nameOf n) (n :: rest) = n :: named (nameOf n) rest :=
  List.filter_cons_of_pos (beq_self_eq_true _)

theorem named_cons_of_ne {name : String} {n : Node} (h : nameOf n ≠ name)
    (rest : List Node) :
    named name (n :: rest) = named name rest :=
  List.filter_cons_of_neg (by rwa [beq_iff_eq])

theorem named_eq_nil {name : String} {ns : List Node}
    (h : name ∉ ns.map nameOf) :
    named name ns = [] := by
  rw [named, List.filter_eq_nil_iff]
  intro n hn he
  exact h (eq_of_beq he ▸ List.mem_map_of_mem hn)

/-- The names in the order in which they first appear, and with each the nodes
of that name. -/
theorem groupByName_eq (ns : List Node) :
    groupByName ns = (ns.map nameOf).eraseDups.map fun name =>
      (name, named name ns) := by
  induction ns with
  | nil => rfl
  | cons n rest ih =>
      have hself : ((groupByName rest).lookup (nameOf n)).getD [] =
          named (nameOf n) rest := by
        rw [ih]
        by_cases hmem : nameOf n ∈ (rest.map nameOf).eraseDups
        · rw [List.lookup_graph (named · rest) hmem, Option.getD_some]
        · rw [List.lookup_eq_none_iff.2,
            named_eq_nil (fun h => hmem (List.mem_eraseDups.2 h))]
          · rfl
          · intro entry hentry
            obtain ⟨name, hname, rfl⟩ := List.mem_map.1 hentry
            rw [bne_iff_ne]
            exact fun he => hmem (he ▸ hname)
      have hothers : (groupByName rest).filter (·.1 != nameOf n) =
        ((rest.map nameOf).filter fun name => !name == nameOf n).eraseDups.map
        fun name =>
            (name, named name (n :: rest)) := by
        rw [ih, List.filter_map, eraseDups_filter]
        refine List.map_congr_left fun name hname => ?_
        have hne : name ≠ nameOf n := bne_iff_ne.1 (List.mem_filter.1 hname).2
        rw [named_cons_of_ne hne.symm]
      rw [groupByName, hself, hothers, List.map_cons, List.eraseDups_cons,
        List.map_cons, named_cons_self]

/-! ## What is captured -/

/-- The group of the nodes that have a name. -/
def groupOf (form : Nat) (ns : List Node) (name : String) : ButtonGroup :=
  ⟨form, name, (named name ns).map itemOf⟩

theorem ofNodes_named {form : Nat} {name : String} {ns : List Node}
    (h : ∀ n ∈ ns, takes n = true ∧ n.attribute? "name" ≠ some "") :
    ofNodes form name (named name ns) = .ok (groupOf form ns name) := by
  have hitems : (named name ns).mapM InputItem.ofNode =
      .ok ((named name ns).map itemOf) := by
    refine mapM_eq_ok_map fun n hn => ?_
    obtain ⟨htakes, hname⟩ := h n (mem_named.1 hn).1
    exact ofNode_of_takes htakes hname
  rw [ofNodes, hitems]
  rfl

/-- A capture succeeds if none of its inputs has an empty name, and then it has
one group for each name. -/
theorem capture_eq_ok_iff {doc : Document} {form : Nat} {node : Node}
    {groups : List ButtonGroup} (hdoc : doc.WellNumbered)
    (hform : doc.find? form = some node) :
    capture doc form = .ok groups ↔
      (∀ n ∈ inputsOf node, n.attribute? "name" ≠ some "") ∧
        groups = ((inputsOf node).map nameOf).eraseDups.map
          (groupOf form (inputsOf node)) := by
  have hnamed : (∀ n ∈ inputsOf node, n.attribute? "name" ≠ some "") →
      capture doc form = .ok (((inputsOf node).map nameOf).eraseDups.map
      (groupOf form (inputsOf node))) := by
    intro hnames
    rw [capture_eq hdoc hform, groupByName_eq, List.mapM_map]
    refine mapM_eq_ok_map fun name _ => ofNodes_named fun n hn => ?_
    exact ⟨(mem_inputsOf.1 hn).2, hnames n hn⟩
  constructor
  · intro h
    have hnames : ∀ n ∈ inputsOf node, n.attribute? "name" ≠ some "" := by
      intro n hn
      rw [capture_eq hdoc hform, groupByName_eq] at h
      have hentry : nameOf n ∈ ((inputsOf node).map nameOf).eraseDups :=
        List.mem_eraseDups.2 (List.mem_map_of_mem hn)
      obtain ⟨g, hg⟩ := exists_ok_of_mapM h (List.mem_map_of_mem hentry)
      obtain ⟨items, hitems, -⟩ := map_eq_ok_iff.1 hg
      obtain ⟨item, hitem⟩ := exists_ok_of_mapM hitems (mem_named.2 ⟨hn, rfl⟩)
      exact name_ne_of_ofNode hitem
    rw [hnamed hnames] at h
    exact ⟨hnames, (Except.ok.inj h).symm⟩
  · rintro ⟨hnames, rfl⟩
    exact hnamed hnames

section Captured

variable {doc : Document} {form : Nat} {node : Node} {groups : List ButtonGroup}

theorem mem_element_of_capture (hdoc : doc.WellNumbered)
    (hform : doc.find? form = some node) (h : capture doc form = .ok groups)
    {i : Nat} :
    (∃ g ∈ groups, ∃ item ∈ g.items, item.element = i) ↔
      ∃ n ∈ inputsOf node, n.id = i := by
  obtain ⟨-, rfl⟩ := (capture_eq_ok_iff hdoc hform).1 h
  constructor
  · rintro ⟨g, hg, item, hitem, rfl⟩
    obtain ⟨name, -, rfl⟩ := List.mem_map.1 hg
    obtain ⟨n, hn, rfl⟩ := List.mem_map.1 hitem
    exact ⟨n, (mem_named.1 hn).1, rfl⟩
  · rintro ⟨n, hn, rfl⟩
    have hname : nameOf n ∈ ((inputsOf node).map nameOf).eraseDups :=
      List.mem_eraseDups.2 (List.mem_map_of_mem hn)
    exact ⟨_, List.mem_map_of_mem hname, itemOf n,
      List.mem_map_of_mem (mem_named.2 ⟨hn, rfl⟩), rfl⟩

/-- The groups divide the nodes up by name: one group for each name, in the
order in which the names first appear, the nodes of a group in the order in
which they are given, and no node left out or in two groups. -/
structure IsPartition (groups : List ButtonGroup) (ns : List Node) : Prop where
  names : groups.map ButtonGroup.name = (ns.map nameOf).eraseDups
  nodup_names : (groups.map ButtonGroup.name).Nodup
  elements : ∀ g ∈ groups, g.items.map InputItem.element =
    (named g.name ns).map Node.id
  nodup_elements : (groups.flatMap fun g => g.items.map InputItem.element).Nodup
  mem_elements : ∀ n ∈ ns, ∃ g ∈ groups, n.id ∈ g.items.map InputItem.element

theorem nodup_ids_inputsOf (h : node.ids.Nodup) :
    ((inputsOf node).map Node.id).Nodup := by
  rw [← map_id_nodes] at h
  exact h.sublist ((List.filter_sublist (l := node.nodes)).map _)

theorem elements_groupOf (form : Nat) (ns : List Node) (name : String) :
    (groupOf form ns name).items.map InputItem.element =
      (named name ns).map Node.id :=
  List.map_map ..

theorem isPartition_groupOf {ns : List Node} (hns : (ns.map Node.id).Nodup) :
    IsPartition ((ns.map nameOf).eraseDups.map (groupOf form ns)) ns := by
  have hnames : ((ns.map nameOf).eraseDups.map (groupOf form ns)).map
      ButtonGroup.name = (ns.map nameOf).eraseDups := by
    rw [List.map_map]
    exact List.map_id _
  have hdisjoint : ∀ name other, name ≠ other → List.Disjoint
      ((named name ns).map Node.id) ((named other ns).map Node.id) := by
    intro name other hne i hi hi'
    obtain ⟨n, hn, rfl⟩ := List.mem_map.1 hi
    obtain ⟨m, hm, hid⟩ := List.mem_map.1 hi'
    have heq : m = n :=
      List.inj_on_of_nodup_map hns (mem_named.1 hm).1 (mem_named.1 hn).1 hid
    exact hne ((mem_named.1 hn).2 ▸ heq ▸ (mem_named.1 hm).2)
  refine ⟨hnames, by rw [hnames]; exact nodup_eraseDups _, ?_, ?_, ?_⟩
  · intro g hg
    obtain ⟨name, -, rfl⟩ := List.mem_map.1 hg
    exact elements_groupOf form ns name
  · rw [List.flatMap_map]
    simp only [elements_groupOf, List.nodup_flatMap]
    refine ⟨fun name _ => hns.sublist (List.filter_sublist.map _), ?_⟩
    exact (nodup_eraseDups _).imp fun hne => hdisjoint _ _ hne
  · intro n hn
    refine ⟨_,
      List.mem_map_of_mem (List.mem_eraseDups.2 (List.mem_map_of_mem hn)), ?_⟩
    rw [elements_groupOf]
    exact List.mem_map_of_mem (mem_named.2 ⟨hn, rfl⟩)

theorem isPartition_of_capture (hdoc : doc.WellNumbered)
    (hform : doc.find? form = some node) (h : capture doc form = .ok groups) :
    IsPartition groups (inputsOf node) := by
  obtain ⟨-, rfl⟩ := (capture_eq_ok_iff hdoc hform).1 h
  exact isPartition_groupOf (nodup_ids_inputsOf (hdoc.nodup_ids_of_find? hform))

theorem IsPartition.nodup_of_mem {ns : List Node} (h : IsPartition groups ns)
    {g : ButtonGroup} (hg : g ∈ groups) :
    (g.items.map InputItem.element).Nodup :=
  (List.nodup_flatMap.1 h.nodup_elements).1 g hg

theorem IsPartition.eq_of_element_eq {ns : List Node}
    (h : IsPartition groups ns) {g g' : ButtonGroup} {item item' : InputItem}
    (hg : g ∈ groups) (hg' : g' ∈ groups) (hitem : item ∈ g.items)
    (hitem' : item' ∈ g'.items) (heq : item.element = item'.element) :
    g = g' ∧ item = item' := by
  have hgroup : g = g' := by
    by_contra hne
    have : Std.Symm (List.Disjoint.onFun fun g : ButtonGroup =>
        g.items.map InputItem.element) := ⟨fun _ _ h => List.disjoint_symm h⟩
    exact (List.nodup_flatMap.1 h.nodup_elements).2.forall hg hg' hne
      (List.mem_map_of_mem hitem) (heq ▸ List.mem_map_of_mem hitem')
  subst hgroup
  exact ⟨rfl, List.inj_on_of_nodup_map (h.nodup_of_mem hg) hitem hitem' heq⟩

theorem takes_of_ofNode {n : Node} {item : InputItem}
    (h : InputItem.ofNode n = .ok item) (htag : n.tag? = some "input")
    (htype : hasWrittenType n = true) : takes n = true := by
  obtain ⟨-, -, hnonempty, -⟩ := InputItem.ofNode_eq_ok_iff.1 h
  have hname : (n.attribute? "name").isSome = true := by
    cases hn : n.attribute? "name" with
    | none => rw [hn] at hnonempty; exact absurd rfl hnonempty
    | some name => rfl
  rw [takes, htag, htype, hname]
  rfl

/-- A capture succeeds with just the inputs that pass the checks on those forms
in which every input whose tag and type are written out has a name that is not
empty, and every one that passes the checks has its tag and its type written
out. -/
theorem capture_agrees_iff (hdoc : doc.WellNumbered)
    (hform : doc.find? form = some node) :
    (∃ groups, capture doc form = .ok groups ∧
      ∀ i, (∃ g ∈ groups, ∃ item ∈ g.items, item.element = i) ↔
        ∃ n ∈ node.nodes, n.id = i ∧ ∃ item, InputItem.ofNode n = .ok item) ↔
    ∀ n ∈ node.nodes,
      (n.tag? = some "input" → hasWrittenType n = true →
        n.attribute? "name" ≠ some "") ∧
      ∀ item, InputItem.ofNode n = .ok item →
        n.tag? = some "input" ∧ hasWrittenType n = true := by
  constructor
  · rintro ⟨groups, hgroups, hsame⟩ n hn
    refine ⟨fun htag htype hempty => ?_, fun item hitem => ?_⟩
    · have htakes : takes n = true := by rw [takes, htag, htype, hempty]; rfl
      exact ((capture_eq_ok_iff hdoc hform).1 hgroups).1 n
        (mem_inputsOf.2 ⟨hn, htakes⟩) hempty
    · -- A node of this number is taken, and by its number it is the node
      -- itself.
      obtain ⟨m, hm, hid⟩ := (mem_element_of_capture hdoc hform hgroups).1
        ((hsame n.id).2 ⟨n, hn, rfl, item, hitem⟩)
      obtain ⟨hmem, htakes⟩ := mem_inputsOf.1 hm
      have heq : m = n := by
        have hfound := hdoc.find?_of_mem_nodes hform hmem
        rw [hid, hdoc.find?_of_mem_nodes hform hn] at hfound
        exact (Option.some.inj hfound).symm
      rw [heq, takes] at htakes
      simp only [Bool.and_eq_true, beq_iff_eq] at htakes
      exact htakes.1
  · intro hall
    have hnames : ∀ n ∈ inputsOf node, n.attribute? "name" ≠ some "" := by
      intro n hn
      obtain ⟨hmem, htakes⟩ := mem_inputsOf.1 hn
      simp only [takes, Bool.and_eq_true, beq_iff_eq] at htakes
      exact (hall n hmem).1 htakes.1.1 htakes.1.2
    have hgroups := (capture_eq_ok_iff hdoc hform).2 ⟨hnames, rfl⟩
    refine ⟨_, hgroups, fun i =>
      (mem_element_of_capture hdoc hform hgroups).trans ?_⟩
    constructor
    · rintro ⟨n, hn, hid⟩
      obtain ⟨hmem, htakes⟩ := mem_inputsOf.1 hn
      exact ⟨n, hmem, hid, itemOf n, ofNode_of_takes htakes (hnames n hn)⟩
    · rintro ⟨n, hn, hid, item, hitem⟩
      obtain ⟨htag, htype⟩ := (hall n hn).2 item hitem
      exact ⟨n, mem_inputsOf.2 ⟨hn, takes_of_ofNode hitem htag htype⟩, hid⟩

end Captured

/-- An input with attributes. -/
def inputWith (attributes : Attributes) : Node :=
  .element 1 "input" attributes "" [] ""

/-- A form that holds one input. -/
def formWith (attributes : Attributes) : Document :=
  { root := .element 0 "form" [] "" [inputWith attributes] ""
    detached := []
    nextId := 2 }

theorem wellNumbered_formWith (attributes : Attributes) :
    (formWith attributes).WellNumbered where
  nodup := by
    change [0, 1].Nodup
    decide
  lt_nextId := by
    change ∀ i ∈ [0, 1], i < 2
    decide

theorem find?_formWith (attributes : Attributes) :
    (formWith attributes).find? 0 = some (formWith attributes).root := rfl

theorem inputWith_mem_nodes (attributes : Attributes) :
    inputWith attributes ∈ (formWith attributes).root.nodes :=
  List.mem_cons_of_mem _ List.mem_cons_self

/-- A form with one radio button that is written out and has a name is captured
with that button. -/
theorem capture_agrees_iff_one :
    (formWith [("type", "radio"), ("name", "a")]).WellNumbered ∧
      ∃ node groups,
        (formWith [("type", "radio"), ("name", "a")]).find? 0 = some node ∧
        (∀ n ∈ node.nodes,
          (n.tag? = some "input" → hasWrittenType n = true →
            n.attribute? "name" ≠ some "") ∧
          ∀ item, InputItem.ofNode n = .ok item →
            n.tag? = some "input" ∧ hasWrittenType n = true) ∧
        capture (formWith [("type", "radio"), ("name", "a")]) 0 =
          .ok groups ∧
        ∀ i, (∃ g ∈ groups, ∃ item ∈ g.items, item.element = i) ↔
          ∃ n ∈ node.nodes, n.id = i ∧
            ∃ item, InputItem.ofNode n = .ok item := by
  have hdoc := wellNumbered_formWith [("type", "radio"), ("name", "a")]
  have hform := find?_formWith [("type", "radio"), ("name", "a")]
  have hall : ∀ n ∈ (formWith [("type", "radio"), ("name", "a")]).root.nodes,
      (n.tag? = some "input" → hasWrittenType n = true →
        n.attribute? "name" ≠ some "") ∧
      ∀ item, InputItem.ofNode n = .ok item →
        n.tag? = some "input" ∧ hasWrittenType n = true := by
    intro n hn
    have hnodes : (formWith [("type", "radio"), ("name", "a")]).root.nodes =
        [(formWith [("type", "radio"), ("name", "a")]).root,
          inputWith [("type", "radio"), ("name", "a")]] := rfl
    rw [hnodes, List.mem_pair] at hn
    rcases hn with rfl | rfl
    · refine ⟨fun htag => absurd htag (by decide), fun item hitem => ?_⟩
      cases hitem
    · exact ⟨fun _ _ => by decide, fun _ _ => ⟨rfl, by decide⟩⟩
  obtain ⟨groups, hgroups, hsame⟩ := (capture_agrees_iff hdoc hform).2 hall
  exact ⟨hdoc, _, groups, hform, hall, hgroups, hsame⟩

/-- A radio button with an empty name makes a capture fail, and one whose type
is written in capitals passes the checks and is not captured. -/
theorem capture_disagrees :
    (¬ ∀ (doc : Document) (form : Nat) (node : Node), doc.WellNumbered →
      doc.find? form = some node → ∃ groups, capture doc form = .ok groups) ∧
    ¬ ∀ (doc : Document) (form : Nat) (node : Node) (groups : List ButtonGroup),
      doc.WellNumbered → doc.find? form = some node →
        capture doc form = .ok groups →
        ∀ n ∈ node.nodes, ∀ item, InputItem.ofNode n = .ok item →
          ∃ g ∈ groups, ∃ taken ∈ g.items, taken.element = n.id := by
  constructor
  · intro hall
    have hdoc := wellNumbered_formWith [("type", "radio"), ("name", "")]
    obtain ⟨groups, hgroups⟩ := hall _ 0 _ hdoc (find?_formWith _)
    have htaken := mem_inputsOf.2
      ⟨inputWith_mem_nodes [("type", "radio"), ("name", "")], by decide⟩
    exact ((capture_eq_ok_iff hdoc (find?_formWith _)).1 hgroups).1 _ htaken rfl
  · intro hall
    have hdoc := wellNumbered_formWith [("type", "RADIO"), ("name", "a")]
    have hnone : inputsOf (formWith [("type", "RADIO"), ("name", "a")]).root =
        [] := by
      decide
    have hgroups : capture (formWith [("type", "RADIO"), ("name", "a")]) 0 =
        .ok [] := by
      rw [capture_eq_ok_iff hdoc (find?_formWith _), hnone]
      exact ⟨by simp, rfl⟩
    have htag : Text.lowercase "input" = "input" := by decide +kernel
    have hkind : InputItem.kindOf (inputWith [("type", "RADIO"),
        ("name", "a")]) = "radio" := by
      change Text.lowercase (Text.trimmed "RADIO") = "radio"
      decide +kernel
    have hitem : InputItem.ofNode
        (inputWith [("type", "RADIO"), ("name", "a")]) = .ok _ :=
      InputItem.ofNode_eq_ok_iff.2 ⟨htag, .inl hkind, by decide, rfl⟩
    obtain ⟨g, hg, -⟩ :=
      hall _ 0 _ [] hdoc (find?_formWith _) hgroups _
        (inputWith_mem_nodes _) _ hitem
    cases hg

end ButtonGroup

end SheetBinding
