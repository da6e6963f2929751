import SheetBinding.Proofs.Form.Capture
import SheetBinding.Proofs.Markup.Masking

/-!
# Selecting among the inputs of a form

Items hold the numbers of their elements, and the document holds what is
selected: an item is selected while its element has the attribute `checked`.
Selecting a radio button therefore writes to the elements of its whole group,
and whether that stays inside the group is a question about numbers. A capture
puts every element into one group and there into one item
(`IsPartition.eq_of_element_eq`), and this is all that is needed of it.

What a selection does to the items is told by one equation for each operation
(`isSelected_deselect`, `isSelected_select`), and what it does to the rest of
the document by one frame (`Operation.apply_agree`): the documents before and
after agree but for the attributes that the operation touches. A run keeps the
elements of all items where they are, so the equations hold at each of its
steps, and from them it follows that a group is exclusive from the first moment
at which it is.
-/

namespace SheetBinding

open Document

/-! ## Marks and values -/

namespace InputItem

variable {a b doc : Document} {hidden : Nat → String → Bool}

theorem isSelected_eq (item : InputItem) (doc : Document) :
    item.isSelected doc = (doc.attribute? item.element "checked").isSome := by
  rw [isSelected, node?, Document.attribute?]
  cases doc.find? item.element <;> rfl

theorem value?_eq (item : InputItem) (doc : Document) :
    item.value? doc = doc.attribute? item.element "value" := rfl

theorem isSelected_congr {item : InputItem} (h : AgreeOutside hidden a b)
    (hvisible : hidden item.element "checked" = false) :
    item.isSelected a = item.isSelected b := by
  rw [isSelected_eq, isSelected_eq, h.attribute?_eq hvisible]

/-- Whether an attribute of an element is the mark of one of some inputs. -/
def isMarkOf (items : List InputItem) (i : Nat) (name : String) : Bool :=
  name == "checked" && items.any (·.element == i)

theorem isMarkOf_of_mem {items : List InputItem} {item : InputItem}
    (h : item ∈ items) :
    isMarkOf items item.element "checked" = true := by
  rw [isMarkOf, beq_self_eq_true, Bool.true_and, List.any_eq_true]
  exact ⟨item, h, beq_self_eq_true _⟩

theorem mark_agree {items : List InputItem} {item : InputItem}
    (h : item ∈ items) (doc : Document) :
    AgreeOutside (isMarkOf items) (mark doc item) doc :=
  agreeOutside_put (isMarkOf_of_mem h) "checked" doc

theorem deselect_agree {items : List InputItem} {item : InputItem}
    (h : item ∈ items) (doc : Document) :
    AgreeOutside (isMarkOf items) (deselect doc item) doc :=
  agreeOutside_erase (isMarkOf_of_mem h) doc

theorem isMarkOf_single_of_ne {item other : InputItem}
    (h : other.element ≠ item.element) (name : String) :
    isMarkOf [item] other.element name = false := by
  simp [isMarkOf, h.symm]

theorem isSelected_deselect (doc : Document) (item other : InputItem) :
    other.isSelected (deselect doc item) =
      (other.isSelected doc && other.element != item.element) := by
  by_cases h : other.element = item.element
  · rw [isSelected_eq, h, deselect, attribute?_erase, bne_self_eq_false,
      Bool.and_false]
    rfl
  · have hagree := deselect_agree (List.mem_singleton_self item) doc
    rw [isSelected_congr hagree (isMarkOf_single_of_ne h _), bne_iff_ne.2 h,
      Bool.and_true]

theorem isSelected_mark {item : InputItem} (h : doc.HasElement item.element)
    (other : InputItem) :
    other.isSelected (mark doc item) =
      (other.element == item.element || other.isSelected doc) := by
  by_cases he : other.element = item.element
  · rw [isSelected_eq, he, mark, attribute?_put h, beq_self_eq_true,
      Bool.true_or]
    rfl
  · have hagree := mark_agree (List.mem_singleton_self item) doc
    rw [isSelected_congr hagree (isMarkOf_single_of_ne he _),
      beq_eq_false_iff_ne.2 he, Bool.false_or]

theorem deselectAll_agree {items all : List InputItem} (h : items ⊆ all)
    (doc : Document) :
    AgreeOutside (isMarkOf all) (items.foldl deselect doc) doc := by
  induction items generalizing doc with
  | nil => exact .refl doc
  | cons item rest ih =>
      obtain ⟨hitem, hrest⟩ := List.cons_subset.1 h
      exact (ih hrest (deselect doc item)).trans (deselect_agree hitem doc)

theorem isSelected_deselectAll (items : List InputItem) (doc : Document)
    (other : InputItem) :
    other.isSelected (items.foldl deselect doc) =
      (other.isSelected doc && items.all (other.element != ·.element)) := by
  induction items generalizing doc with
  | nil => rw [List.foldl_nil, List.all_nil, Bool.and_true]
  | cons item rest ih =>
      rw [List.foldl_cons, ih, isSelected_deselect, List.all_cons,
        Bool.and_assoc]

end InputItem

/-! ## Groups -/

namespace ButtonGroup

variable {a b doc : Document} {g : ButtonGroup}

/-- The items that selecting an item writes to. -/
def written (g : ButtonGroup) (item : InputItem) : List InputItem :=
  item :: if item.radio then g.items.filter (·.radio) else []

theorem select_agree (g : ButtonGroup) (doc : Document) (item : InputItem) :
    AgreeOutside (InputItem.isMarkOf (g.written item)) (g.select doc item)
      doc := by
  have hmark : ∀ before, AgreeOutside (InputItem.isMarkOf (g.written item))
      (InputItem.mark before item) before :=
    InputItem.mark_agree List.mem_cons_self
  rw [select]
  split
  · next hradio =>
      refine (hmark _).trans (InputItem.deselectAll_agree
        (fun other hother => ?_) doc)
      rw [List.mem_filter, Bool.and_eq_true] at hother
      rw [written, if_pos hradio]
      exact List.mem_cons_of_mem _ (List.mem_filter.2 ⟨hother.1, hother.2.1⟩)
  · exact hmark doc

theorem isSelected_deselectOthers {item other : InputItem}
    (hnodup : (g.items.map InputItem.element).Nodup) (hitem : item ∈ g.items)
    (hother : other ∈ g.items) (hne : other ≠ item) :
    other.isSelected ((g.items.filter fun o => o.radio && o.element !=
      item.element).foldl InputItem.deselect doc) =
      (other.isSelected doc && !other.radio) := by
  have hinj : ∀ o ∈ g.items, other.element = o.element → other = o :=
    fun o ho => List.inj_on_of_nodup_map hnodup hother ho
  rw [InputItem.isSelected_deselectAll]
  congr 1
  cases hradio : other.radio with
  | true =>
      rw [Bool.not_true, List.all_eq_false]
      refine ⟨other, List.mem_filter.2 ⟨hother, ?_⟩, by simp⟩
      rw [hradio, Bool.true_and, bne_iff_ne]
      exact fun he => hne (hinj item hitem he)
  | false =>
      rw [Bool.not_false, List.all_eq_true]
      intro o ho
      obtain ⟨ho, hkind⟩ := List.mem_filter.1 ho
      rw [bne_iff_ne]
      intro he
      rw [← hinj o ho he, hradio] at hkind
      cases hkind

/-- After an item was selected, it is, and of the others those are that were,
unless the item is a radio button and so is the other. -/
theorem isSelected_select {item other : InputItem}
    (hnodup : (g.items.map InputItem.element).Nodup) (hitem : item ∈ g.items)
    (hother : other ∈ g.items) (h : doc.HasElement item.element) :
    other.isSelected (g.select doc item) =
      (other == item || other.isSelected doc &&
        !(item.radio && other.radio)) := by
  have hsame : (other.element == item.element) = (other == item) := by
    rw [Bool.eq_iff_iff, beq_iff_eq, beq_iff_eq]
    exact ⟨List.inj_on_of_nodup_map hnodup hother hitem,
      congrArg InputItem.element⟩
  have hkept := (InputItem.deselectAll_agree (List.Subset.refl (g.items.filter
    fun o => o.radio && o.element != item.element)) doc).hasElement_iff.2 h
  rw [select]
  cases hradio : item.radio with
  | true =>
      rw [if_pos rfl, InputItem.isSelected_mark hkept, hsame, Bool.true_and]
      cases hne : other == item with
      | true => rw [Bool.true_or, Bool.true_or]
      | false =>
          rw [isSelected_deselectOthers hnodup hitem hother
            (beq_eq_false_iff_ne.1 hne)]
  | false =>
      rw [if_neg Bool.false_ne_true, InputItem.isSelected_mark h, hsame,
        Bool.false_and, Bool.not_false, Bool.and_true]

/-- At most one radio button of a group is selected. -/
def IsExclusive (g : ButtonGroup) (doc : Document) : Prop :=
  g.items.countP (fun item => item.radio && item.isSelected doc) ≤ 1

theorem IsExclusive.of_imp (h : g.IsExclusive b)
    (himp : ∀ item ∈ g.items, item.radio = true → item.isSelected a = true →
      item.isSelected b = true) : g.IsExclusive a := by
  refine Nat.le_trans (List.countP_mono_left fun item hitem hcounted => ?_) h
  rw [Bool.and_eq_true] at hcounted ⊢
  exact ⟨hcounted.1, himp item hitem hcounted.1 hcounted.2⟩

theorem IsExclusive.of_only {item : InputItem} (hnodup : g.items.Nodup)
    (honly : ∀ other ∈ g.items, other.radio = true → other.isSelected a = true →
      other = item) :
    g.IsExclusive a := by
  refine Nat.le_trans (List.countP_mono_left (q := (· == item))
    fun other hother hcounted => ?_) ?_
  · rw [Bool.and_eq_true] at hcounted
    exact beq_iff_eq.2 (honly other hother hcounted.1 hcounted.2)
  · exact List.nodup_iff_count_le_one.1 hnodup item

theorem isExclusive_select {item : InputItem}
    (hnodup : (g.items.map InputItem.element).Nodup) (hitem : item ∈ g.items)
    (helement : doc.HasElement item.element)
    (h : g.IsExclusive doc ∨ item.radio = true) :
    g.IsExclusive (g.select doc item) := by
  by_cases hradio : item.radio = true
  · have honly : ∀ other ∈ g.items, other.radio = true →
        other.isSelected (g.select doc item) = true → other = item := by
      intro other hother hkind hsel
      rw [isSelected_select hnodup hitem hother helement, hradio, hkind] at hsel
      simpa using hsel
    exact .of_only (hnodup.of_map _) honly
  · refine (h.resolve_right hradio).of_imp fun other hother hkind hsel => ?_
    rw [isSelected_select hnodup hitem hother helement, Bool.or_eq_true,
      beq_iff_eq, Bool.and_eq_true] at hsel
    rcases hsel with rfl | hsel
    · exact absurd hkind hradio
    · exact hsel.1

theorem IsExclusive.deselect (h : g.IsExclusive doc) (item : InputItem) :
    g.IsExclusive (item.deselect doc) := by
  refine h.of_imp fun other _ _ hsel => ?_
  rw [InputItem.isSelected_deselect, Bool.and_eq_true] at hsel
  exact hsel.1

end ButtonGroup

/-! ## Operations -/

/-- What can be done with an input. -/
inductive Action where
  | select
  | deselect
  | setValue (value : String)

/-- Something done with an input of a group. -/
structure Operation where
  group : ButtonGroup
  item : InputItem
  action : Action

namespace Operation

variable {op : Operation} {groups : List ButtonGroup} {ns : List Node}
  {doc : Document}

/-- What an operation makes of a document. -/
def apply (op : Operation) (doc : Document) : Document :=
  match op.action with
  | .select => op.group.select doc op.item
  | .deselect => op.item.deselect doc
  | .setValue value => (op.item.setValue? doc value).getD doc

/-- What operations make of a document, one after the other. -/
def run (ops : List Operation) (doc : Document) : Document :=
  ops.foldl (fun doc op => op.apply doc) doc

/-- An operation on an item of one of the groups, with a value that a document
can hold if it sets one. -/
structure IsOn (op : Operation) (groups : List ButtonGroup) : Prop where
  group_mem : op.group ∈ groups
  item_mem : op.item ∈ op.group.items
  storable : ∀ value, op.action = .setValue value → Text.storable value = true

/-- Whether an operation may change an attribute of an element. -/
def touches (op : Operation) (i : Nat) (name : String) : Bool :=
  match op.action with
  | .select => InputItem.isMarkOf (op.group.written op.item) i name
  | .deselect => InputItem.isMarkOf [op.item] i name
  | .setValue _ => name == "value" && i == op.item.element

/-- An operation selects a radio button of a group. -/
def SelectsRadio (op : Operation) (g : ButtonGroup) : Prop :=
  op.group = g ∧ op.item.radio = true ∧ op.action = .select

theorem apply_agree (op : Operation) (doc : Document) :
    AgreeOutside op.touches (op.apply doc) doc := by
  obtain ⟨g, item, action⟩ := op
  cases action with
  | select => exact g.select_agree doc item
  | deselect =>
      exact InputItem.deselect_agree (List.mem_singleton_self item) doc
  | setValue value =>
      change AgreeOutside _ ((item.setValue? doc value).getD doc) doc
      rw [InputItem.setValue?]
      split
      · exact agreeOutside_put (by simp [touches]) value doc
      · exact .refl doc

theorem touches_cases {i : Nat} {name : String} (h : op.touches i name = true) :
    i = op.item.element ∨ ∃ other ∈ op.group.items, other.radio = true ∧
      i = other.element := by
  obtain ⟨g, item, action⟩ := op
  cases action with
  | select =>
      simp only [touches, InputItem.isMarkOf, ButtonGroup.written,
        Bool.and_eq_true, List.any_eq_true, beq_iff_eq] at h
      obtain ⟨-, other, hother, rfl⟩ := h
      rcases List.mem_cons.1 hother with rfl | hother
      · exact .inl rfl
      · split at hother
        · rw [List.mem_filter] at hother
          exact .inr ⟨other, hother.1, hother.2, rfl⟩
        · cases hother
  | deselect =>
      simp only [touches, InputItem.isMarkOf, Bool.and_eq_true,
        List.any_eq_true, beq_iff_eq] at h
      obtain ⟨-, other, hother, rfl⟩ := h
      exact .inl (congrArg InputItem.element (List.mem_singleton.1 hother))
  | setValue value =>
      simp only [touches, Bool.and_eq_true, beq_iff_eq] at h
      exact .inl h.2

/-- No operation writes to a checkbox other than its item, or to an item of
another group. -/
theorem touches_eq_false (hp : ButtonGroup.IsPartition groups ns)
    (hop : op.IsOn groups) {g : ButtonGroup} {other : InputItem}
    (hg : g ∈ groups) (hother : other ∈ g.items)
    (h : (other ≠ op.item ∧ other.radio = false) ∨ g ≠ op.group)
    (name : String) :
    op.touches other.element name = false := by
  by_contra htouched
  rw [Bool.not_eq_false] at htouched
  -- What is written to is an item of the operation's group, and has the element
  -- of `other`.
  obtain ⟨written, hwritten, hradio, heq⟩ : ∃ written ∈ op.group.items,
      (written = op.item ∨ written.radio = true) ∧
      other.element = written.element := by
    rcases touches_cases htouched with heq | ⟨written, hwritten, hradio, heq⟩
    · exact ⟨op.item, hop.item_mem, .inl rfl, heq⟩
    · exact ⟨written, hwritten, .inr hradio, heq⟩
  obtain ⟨hgroup, rfl⟩ := hp.eq_of_element_eq hg hop.group_mem hother
    hwritten heq
  rcases h with ⟨hne, hcheckbox⟩ | hne
  · rcases hradio with hitem | hradio
    · exact hne hitem
    · rw [hcheckbox] at hradio
      cases hradio
  · exact hne hgroup

/-- What an operation does to a document: what it is for, and nothing
besides. -/
structure Effect (op : Operation) (groups : List ButtonGroup)
    (before after : Document) : Prop where
  done : match op.action with
    | .select => op.item.isSelected after = true
    | .deselect => op.item.isSelected after = false
    | .setValue value => op.item.value? after = some value
  frame : AgreeOutside op.touches after before
  others : ∀ g ∈ groups, ∀ other ∈ g.items,
    (other ≠ op.item ∧ other.radio = false) ∨ g ≠ op.group →
      after.attributesOf? other.element = before.attributesOf? other.element

theorem effect_apply (hp : ButtonGroup.IsPartition groups ns)
    (hop : op.IsOn groups) (helement : doc.HasElement op.item.element) :
    op.Effect groups doc (op.apply doc) where
  done := by
    have hnodup := hp.nodup_of_mem hop.group_mem
    obtain ⟨-, hitem, hstorable⟩ := hop
    obtain ⟨g, item, action⟩ := op
    cases action with
    | select =>
        change item.isSelected (g.select doc item) = true
        rw [ButtonGroup.isSelected_select hnodup hitem hitem helement,
          beq_self_eq_true, Bool.true_or]
    | deselect =>
        change item.isSelected (item.deselect doc) = false
        rw [InputItem.isSelected_deselect, bne_self_eq_false, Bool.and_false]
    | setValue value =>
        change item.value? ((item.setValue? doc value).getD doc) = some value
        rw [InputItem.setValue?, if_pos (hstorable value rfl), Option.getD_some,
          InputItem.value?_eq]
        exact attribute?_put helement "value" value
  frame := op.apply_agree doc
  others g hg other hother h :=
    (op.apply_agree doc).attributesOf?_eq (touches_eq_false hp hop hg hother h)

theorem isExclusive_apply (hp : ButtonGroup.IsPartition groups ns)
    (hop : op.IsOn groups) (helement : doc.HasElement op.item.element)
    {g : ButtonGroup} (hg : g ∈ groups)
    (h : g.IsExclusive doc ∨ op.SelectsRadio g) :
    g.IsExclusive (op.apply doc) := by
  have hnodup := hp.nodup_of_mem hg
  by_cases hgroup : op.group = g
  · have hitem := hop.item_mem
    obtain ⟨own, item, action⟩ := op
    obtain rfl : own = g := hgroup
    cases action with
    | select =>
        exact ButtonGroup.isExclusive_select hnodup hitem helement
          (h.imp_right (·.2.1))
    | deselect =>
        exact (h.resolve_right fun hselects =>
          nomatch hselects.2.2).deselect item
    | setValue value =>
        have hexclusive := h.resolve_right fun hselects => nomatch hselects.2.2
        refine hexclusive.of_imp fun other _ _ hsel => ?_
        rwa [InputItem.isSelected_congr (apply_agree _ doc)
          (by simp [touches])] at hsel
  · have hexclusive := h.resolve_right fun hselects => hgroup hselects.1
    refine hexclusive.of_imp fun other hother _ hsel => ?_
    have hvisible := touches_eq_false hp hop hg hother (.inr (Ne.symm hgroup))
      "checked"
    rwa [InputItem.isSelected_congr (op.apply_agree doc) hvisible] at hsel

/-! ## Runs -/

/-- All inputs of some groups are elements of a document. -/
def HasElements (groups : List ButtonGroup) (doc : Document) : Prop :=
  ∀ g ∈ groups, ∀ item ∈ g.items, doc.HasElement item.element

theorem HasElements.apply (h : HasElements groups doc) (op : Operation) :
    HasElements groups (op.apply doc) :=
  fun g hg item hitem => (op.apply_agree doc).hasElement_iff.2
    (h g hg item hitem)

theorem HasElements.run (h : HasElements groups doc) (ops : List Operation) :
    HasElements groups (run ops doc) := by
  induction ops generalizing doc with
  | nil => exact h
  | cons op rest ih => exact ih (h.apply op)

theorem isExclusive_run (hp : ButtonGroup.IsPartition groups ns)
    {ops : List Operation} (hops : ∀ op ∈ ops, op.IsOn groups)
    (helements : HasElements groups doc) {g : ButtonGroup} (hg : g ∈ groups)
    (h : g.IsExclusive doc ∨ ∃ op ∈ ops, op.SelectsRadio g) :
    g.IsExclusive (run ops doc) := by
  induction ops generalizing doc with
  | nil =>
      rcases h with h | ⟨op, hop, -⟩
      · exact h
      · cases hop
  | cons op rest ih =>
      obtain ⟨hop, hrest⟩ := List.forall_mem_cons.1 hops
      have helement := helements _ hop.group_mem _ hop.item_mem
      -- From the step that makes the group exclusive on, the first alternative
      -- holds.
      refine ih hrest (helements.apply op) ?_
      rcases h with h | ⟨later, hlater, hselects⟩
      · exact .inl (isExclusive_apply hp hop helement hg (.inl h))
      · rcases List.mem_cons.1 hlater with rfl | hlater
        · exact .inl (isExclusive_apply hp hop helement hg (.inr hselects))
        · exact .inr ⟨later, hlater, hselects⟩

end Operation

namespace ButtonGroup

theorem hasElements_of_capture {doc : Document} {form : Nat} {node : Node}
    {groups : List ButtonGroup} (hdoc : doc.WellNumbered)
      (hform : doc.find? form = some node)
    (h : capture doc form = .ok groups) : Operation.HasElements groups doc := by
  intro g hg item hitem
  obtain ⟨n, hn, hid⟩ := (mem_element_of_capture hdoc hform h).1 ⟨g, hg, item,
    hitem, rfl⟩
  obtain ⟨hmem, htakes⟩ := mem_inputsOf.1 hn
  simp only [takes, Bool.and_eq_true, beq_iff_eq] at htakes
  rw [HasElement, ← hid, hdoc.find?_of_mem_nodes hform hmem, Option.map_some,
    Node.isElement, htakes.1.1]
  rfl

/-- The groups of a form divide its inputs up by name, and in every state that
operations on their items lead to, each group that was exclusive or in which a
radio button has been selected is exclusive, and a further operation does what
it is for and nothing besides. -/
theorem exclusive_over_runs {doc : Document} {form : Nat} {node : Node}
    {groups : List ButtonGroup} (hdoc : doc.WellNumbered)
    (hform : doc.find? form = some node)
    (hcapture : capture doc form = .ok groups) :
    IsPartition groups (inputsOf node) ∧
    ∀ ops : List Operation, (∀ op ∈ ops, op.IsOn groups) →
      (∀ g ∈ groups, (g.IsExclusive doc ∨ ∃ op ∈ ops, op.SelectsRadio g) →
        g.IsExclusive (Operation.run ops doc)) ∧
      ∀ op : Operation, op.IsOn groups →
        op.Effect groups (Operation.run ops doc)
          (op.apply (Operation.run ops doc)) := by
  have hp := isPartition_of_capture hdoc hform hcapture
  have helements := hasElements_of_capture hdoc hform hcapture
  refine ⟨hp, fun ops hops => ⟨fun g hg h => Operation.isExclusive_run hp hops
    helements hg h, fun op hop => ?_⟩⟩
  exact Operation.effect_apply hp hop
    (helements.run ops _ hop.group_mem _ hop.item_mem)

/-- A form with two sizes, both selected, and an extra. -/
def orderForm : Document :=
  let input (i : Nat) (attributes : Attributes) : Node :=
    .element i "input" attributes "" [] ""
  { root := .element 0 "form" [] "" [
      input 1 [("type", "radio"), ("name", "size"), ("value", "S"),
        ("checked", "")],
      input 2 [("type", "radio"), ("name", "size"), ("value", "M"),
        ("checked", "")],
      input 3 [("type", "checkbox"), ("name", "extra"), ("value", "olives")]] ""
    detached := []
    nextId := 4 }

/-- A group of two radio buttons. -/
def sizes : ButtonGroup :=
  ⟨0, "size", [⟨1, true⟩, ⟨2, true⟩]⟩

/-- A group of one checkbox. -/
def extras : ButtonGroup :=
  ⟨0, "extra", [⟨3, false⟩]⟩

theorem exclusive_over_runs_order :
    orderForm.WellNumbered ∧ orderForm.find? 0 = some orderForm.root ∧
      capture orderForm 0 = .ok [sizes, extras] ∧
      IsPartition [sizes, extras] (inputsOf orderForm.root) ∧
      ¬ sizes.IsExclusive orderForm ∧
      sizes.IsExclusive
        (Operation.run [⟨sizes, ⟨2, true⟩, .select⟩] orderForm) ∧
      Operation.Effect ⟨extras, ⟨3, false⟩, .select⟩ [sizes, extras]
        (Operation.run [⟨sizes, ⟨2, true⟩, .select⟩] orderForm)
        (Operation.apply ⟨extras, ⟨3, false⟩, .select⟩
          (Operation.run [⟨sizes, ⟨2, true⟩, .select⟩] orderForm)) := by
  have hdoc : orderForm.WellNumbered := ⟨by decide, by decide⟩
  have hform : orderForm.find? 0 = some orderForm.root := rfl
  have hcapture : capture orderForm 0 = .ok [sizes, extras] :=
    (capture_eq_ok_iff hdoc hform).2 ⟨by decide, by decide⟩
  obtain ⟨hp, hruns⟩ := exclusive_over_runs hdoc hform hcapture
  obtain ⟨hexclusive, heffect⟩ :=
    hruns [⟨sizes, ⟨2, true⟩, .select⟩] fun op hop => by
    obtain rfl := List.mem_singleton.1 hop
    exact ⟨List.mem_cons_self, by decide, fun value h => nomatch h⟩
  refine ⟨hdoc, hform, hcapture, hp, by unfold IsExclusive; decide, ?_, ?_⟩
  · exact hexclusive sizes List.mem_cons_self
      (.inr ⟨_, List.mem_cons_self, rfl, rfl, rfl⟩)
  · exact heffect _ ⟨List.mem_cons_of_mem _ List.mem_cons_self,
      by decide, fun value h => nomatch h⟩

end ButtonGroup

end SheetBinding
