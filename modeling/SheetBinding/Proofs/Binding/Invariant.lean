import Mathlib.Data.List.Basic
import SheetBinding.Proofs.Binding.Write

/-!
# What holds of every document that a sheet is applied to

Every node has a number of its own, and stays the only one that has it. A
document that has just been read is so, every write keeps it so, and by
induction over the pairs that a rule binds and the rules of a sheet, so does a
whole run (`Sheet.wellNumbered_apply`).

What a rule finds in such a document are elements in document order, each once,
because a search goes through the places of the tree from first to last
(`Rule.elements?_sublist`).
-/

namespace SheetBinding

/-! ## Numbers -/

theorem Rule.wellNumbered_bindPairs {r : Rule} {pairs : List (Scalar × Nat)}
    {count bound : Nat} {doc after : Document} (hdoc : doc.WellNumbered)
    (hrun : bindPairs r.bindItem count doc pairs = (after, .ok bound)) :
    after.WellNumbered := by
  induction pairs generalizing count doc with
  | nil =>
      cases hrun
      exact hdoc
  | cons p rest ih =>
      obtain ⟨v, t⟩ := p
      rw [bindPairs] at hrun
      rcases hbind : r.bindItem doc (v, t) with ⟨next, failure⟩
      rw [hbind] at hrun
      cases failure with
      | some e => cases hrun
      | none =>
          have honce := List.nodup_iff_count.1 hdoc.nodup t
          exact ih ((Document.edited_bind honce hbind).wellNumbered hdoc) hrun

theorem Rule.wellNumbered_bindElements {r : Rule} {doc : Document}
    {elements : List Nat} (hdoc : doc.WellNumbered)
    (hok : (r.bindElements doc elements).failure = none) :
    (r.bindElements doc elements).document.WellNumbered := by
  rw [bindElements] at hok ⊢
  split at hok
  · cases hok
  · rw [bindItems, bindTo] at hok ⊢
    cases hrun : bindPairs r.bindItem 0 doc
      (pairUp r.default r.items elements) with
    | mk after result =>
        rw [hrun] at hok
        cases result with
        | error e => cases hok
        | ok bound => exact wellNumbered_bindPairs hdoc hrun
  · cases hok

theorem Rule.wellNumbered_applyAt {r : Rule} {doc : Document} {scope : Nat}
    {descendants : Bool} (hdoc : doc.WellNumbered)
    (hok : (r.applyAt doc scope descendants).failure = none) :
    (r.applyAt doc scope descendants).document.WellNumbered := by
  rw [applyAt] at hok ⊢
  split at hok
  · cases hok
  · exact wellNumbered_bindElements hdoc hok

theorem Sheet.wellNumbered_applyRules {rules : List Rule} {doc : Document}
    {scope : Nat} {descendants : Bool} (hdoc : doc.WellNumbered)
    (hok : (applyRules doc scope descendants rules).failure = none) :
    (applyRules doc scope descendants rules).document.WellNumbered := by
  induction rules generalizing doc with
  | nil => exact hdoc
  | cons r rest ih =>
      rw [applyRules] at hok ⊢
      dsimp only at hok ⊢
      cases hfirst : (r.applyAt doc scope descendants).failure with
      | some e => rw [hfirst] at hok; cases hfirst.symm.trans hok
      | none =>
          rw [hfirst] at hok
          exact ih (r.wellNumbered_applyAt hdoc hfirst) hok

/-- A well numbered document is one still when a sheet has been applied to
it. -/
theorem Sheet.wellNumbered_apply {s : Sheet} {doc : Document}
    {scope : Option Nat} {descendants : Bool} (hdoc : doc.WellNumbered)
    (hok : (s.apply doc scope descendants).failure = none) :
    (s.apply doc scope descendants).document.WellNumbered := by
  cases scope with
  | none => exact hdoc
  | some scope => exact Sheet.wellNumbered_applyRules hdoc hok

/-! ## What is selected -/

theorem Selector.isElement_of_holds {axis : List Place} {start : Place → Bool}
    {chain : Complex} {p : Place} (h : chain.holds axis start p = true) :
    p.isElement = true := by
  have hcompound : ∀ compound : Compound, compound.holds axis p = true →
    p.isElement = true := by
    intro compound hc
    obtain ⟨test, conditions⟩ := compound
    rw [Compound.holds, Bool.and_eq_true] at hc
    cases test with
    | any => exact hc.1
    | named name =>
        have htag : p.node.tag? = some name := eq_of_beq hc.1
        rw [Place.isElement]
        cases hnode : p.node with
        | element i tag as text cs tail => rfl
        | comment i content tail => rw [hnode] at htag; cases htag
    | qualified => cases hc.1
  cases chain with
  | single compound =>
      rw [Complex.holds, Bool.and_eq_true] at h
      exact hcompound compound h.2
  | join left combinator compound =>
      rw [Complex.holds, Bool.and_eq_true] at h
      exact hcompound compound h.1

theorem Selector.Group.select_sublist (group : Group) (tree : Node)
    (scope : Nat) (descendants : Bool) :
    ((group.select tree scope descendants).map Place.id).Sublist
      tree.elementIds := by
  refine List.Sublist.map _ ?_
  rw [select]
  refine List.monotone_filter_right _ fun p hp => ?_
  obtain ⟨chain, -, hchain⟩ := List.any_eq_true.1 hp
  exact isElement_of_holds hchain

/-- What a rule selects from a scope in the document are elements of it in
document order. -/
theorem Rule.elements?_sublist {r : Rule} {doc : Document} {scope : Nat}
    {descendants : Bool} {elements : List Nat} (hscope : scope ∈ doc.root.ids)
    (h : r.elements? doc scope descendants = some elements) :
    elements.Sublist doc.root.elementIds := by
  have htop : doc.topOf? scope = some doc.root := by
    obtain ⟨m, hm⟩ := Node.exists_find?_of_mem hscope
    rw [Document.topOf?, Document.trees,
      List.find?_cons_of_pos (by rw [hm]; rfl)]
  rw [elements?, htop, Option.getD_some, Selector.search?] at h
  split at h
  · cases h
  · cases h
    exact Selector.Group.select_sublist _ _ _ _

end SheetBinding
