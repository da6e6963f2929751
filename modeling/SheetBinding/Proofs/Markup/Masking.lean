import SheetBinding.Proofs.Markup.Removal

/-!
# What changes of attributes leave alone

To say of a change that nothing else has changed is to compare two whole
documents. Here this is one equation: with the attributes left out that were
allowed to change, the documents are equal (`Document.AgreeOutside`). Which
attributes these are is told by the number of the element and by the name, so
the equation speaks of every other attribute, and of every tag, text and tail
and the shape of all trees besides.

Leaving attributes out never touches numbers, and so it goes through a search
(`find?_mask`); what one reads off a node that is found is then the same in both
documents, unless it is a hidden attribute that is read.
-/

namespace SheetBinding

/-! ## Lists of attributes -/

namespace Attributes

theorem value?_filter (keep : String → Bool) {as : Attributes} {name : String}
    (h : keep name = true) : value? (as.filter fun a => keep a.1) name =
      as.value? name := by
  simp only [value?]
  induction as with
  | nil => rfl
  | cons a rest ih =>
      obtain ⟨n, v⟩ := a
      rw [List.filter_cons]
      cases hn : name == n with
      | true =>
          cases eq_of_beq hn
          rw [if_pos h, List.lookup_cons, List.lookup_cons, hn]
      | false =>
          rw [List.lookup_cons, hn, ← ih]
          split
          · rw [List.lookup_cons, hn]
          · rfl

@[simp] theorem value?_put (as : Attributes) (name value : String) :
    (as.put name value).value? name = some value := by
  induction as with
  | nil => simp [put, value?]
  | cons a rest ih =>
      obtain ⟨n, v⟩ := a
      rw [put]
      split
      · next hn => simp [value?, eq_of_beq hn]
      · next hn =>
          have hne : (name == n) = false := by
            rw [beq_eq_false_iff_ne]
            exact fun he => hn (by simp [he])
          rw [value?, List.lookup_cons, hne]
          exact ih

@[simp] theorem value?_erase (as : Attributes) (name : String) :
    (as.erase name).value? name = none := by
  rw [value?, List.lookup_eq_none_iff]
  intro a ha
  rw [erase, List.mem_filter] at ha
  rw [bne_iff_ne]
  exact fun he => by simp [he] at ha

theorem filter_put (keep : String → Bool) {name : String}
    (h : keep name = false) (as : Attributes) (value : String) :
    ((as.put name value).filter fun a => keep a.1) =
      as.filter fun a => keep a.1 := by
  induction as with
  | nil => simp [put, h]
  | cons a rest ih =>
      obtain ⟨n, v⟩ := a
      rw [put]
      split
      · next hn =>
          have hkeep : keep n = false := eq_of_beq hn ▸ h
          simp [hkeep]
      · rw [List.filter_cons, List.filter_cons, ih]

theorem filter_erase (keep : String → Bool) {name : String}
    (h : keep name = false) (as : Attributes) :
    ((as.erase name).filter fun a => keep a.1) =
      as.filter fun a => keep a.1 := by
  rw [erase, List.filter_filter]
  refine List.filter_congr fun a _ => ?_
  by_cases ha : a.1 = name
  · rw [ha, h]
    rfl
  · simp [ha]

end Attributes

/-! ## Nodes -/

namespace Node

variable {hidden : Nat → String → Bool}

mutual

/-- A node without the attributes that are hidden, at it and below it. -/
def mask (hidden : Nat → String → Bool) : Node → Node
  | element i tag as text cs tail =>
    element i tag (as.filter fun a => !hidden i a.1) text
      (maskAmong hidden cs) tail
  | comment i content tail => comment i content tail

/-- Nodes with some of their attributes hidden. -/
def maskAmong (hidden : Nat → String → Bool) : List Node → List Node
  | [] => []
  | n :: rest => n.mask hidden :: maskAmong hidden rest

end

theorem maskAmong_eq_map (ns : List Node) :
    maskAmong hidden ns = ns.map (·.mask hidden) := by
  induction ns with
  | nil => rw [maskAmong, List.map_nil]
  | cons n rest ih => rw [maskAmong, ih, List.map_cons]

theorem isElement_mask (n : Node) :
    (n.mask hidden).isElement = n.isElement := by
  cases n with
  | element i tag as text cs tail => rw [mask]; rfl
  | comment i content tail => rw [mask]

theorem attributes_mask (n : Node) :
    (n.mask hidden).attributes =
      n.attributes.filter fun a => !hidden n.id a.1 := by
  cases n <;> (rw [mask]; rfl)

theorem attributes_mask_of_visible {n : Node}
    (h : ∀ name, hidden n.id name = false) :
    (n.mask hidden).attributes = n.attributes := by
  rw [attributes_mask]
  exact List.filter_eq_self.2 fun a _ => by rw [h]; rfl

theorem attribute?_mask {n : Node} {name : String}
    (h : hidden n.id name = false) :
    (n.mask hidden).attribute? name = n.attribute? name := by
  rw [attribute?, attribute?, attributes_mask]
  exact Attributes.value?_filter (fun name => !hidden n.id name)
    (by rw [h]; rfl)

mutual

theorem find?_mask (t : Nat) (n : Node) :
    (n.mask hidden).find? t = (n.find? t).map (mask hidden) := by
  match n with
  | element i tag as text cs tail =>
      rw [mask, find?, find?, findAmong?_maskAmong]
      split
      · rw [Option.map_some, mask]
      · rfl
  | comment i content tail =>
      rw [mask, find?]
      split
      · rw [Option.map_some, mask]
      · rfl

theorem findAmong?_maskAmong (t : Nat) (ns : List Node) :
    findAmong? t (maskAmong hidden ns) =
      (findAmong? t ns).map (mask hidden) := by
  match ns with
  | [] => rw [maskAmong, findAmong?]; rfl
  | n :: rest =>
      rw [maskAmong, findAmong?, findAmong?, find?_mask, findAmong?_maskAmong]
      cases n.find? t <;> rfl

end

mutual

theorem mask_update {t : Nat} {change : Node → Node}
    (h : ∀ m : Node, m.id = t → (change m).mask hidden = m.mask hidden)
      (n : Node) :
    (n.update t change).mask hidden = n.mask hidden := by
  match n with
  | element i tag as text cs tail =>
      rw [update]
      split
      · next hi => exact h _ (eq_of_beq hi)
      · rw [mask, mask, maskAmong_updateAmong h cs]
  | comment i content tail =>
      rw [update]
      split
      · next hi => exact h _ (eq_of_beq hi)
      · rfl

theorem maskAmong_updateAmong {t : Nat} {change : Node → Node}
    (h : ∀ m : Node, m.id = t → (change m).mask hidden = m.mask hidden)
      (ns : List Node) :
    maskAmong hidden (updateAmong t change ns) = maskAmong hidden ns := by
  match ns with
  | [] => rw [updateAmong]
  | n :: rest =>
      rw [updateAmong, maskAmong, maskAmong, mask_update h n,
        maskAmong_updateAmong h rest]

end

theorem mask_withAttributes {n : Node} {as : Attributes}
    (h : (as.filter fun a => !hidden n.id a.1) =
      n.attributes.filter fun a => !hidden n.id a.1) :
    (n.withAttributes as).mask hidden = n.mask hidden := by
  cases n with
  | element i tag old text cs tail =>
      rw [withAttributes, mask, mask]
      exact congrArg (fun as =>
        element i tag as text (maskAmong hidden cs) tail) h
  | comment i content tail => rfl

mutual

theorem find?_update_self {t : Nat} {change : Node → Node}
    (hid : ∀ m, (change m).id = m.id) (n : Node) :
    (n.update t change).find? t = (n.find? t).map change := by
  match n with
  | element i tag as text cs tail =>
      rw [update, find?]
      split
      · next hi =>
          have hchanged : (change (element i tag as text cs tail)).id = t :=
            (hid _).trans (eq_of_beq hi)
          rw [Option.map_some, ← hchanged]
          exact find?_self _
      · next hi => rw [find?, if_neg hi, findAmong?_updateAmong_self hid cs]
  | comment i content tail =>
      rw [update, find?]
      split
      · next hi =>
          have hchanged : (change (comment i content tail)).id = t :=
            (hid _).trans (eq_of_beq hi)
          rw [Option.map_some, ← hchanged]
          exact find?_self _
      · next hi => rw [find?, if_neg hi]; rfl

theorem findAmong?_updateAmong_self {t : Nat} {change : Node → Node}
    (hid : ∀ m, (change m).id = m.id) (ns : List Node) :
    findAmong? t (updateAmong t change ns) = (findAmong? t ns).map change := by
  match ns with
  | [] => rw [updateAmong, findAmong?]; rfl
  | n :: rest =>
      rw [updateAmong, findAmong?, findAmong?, find?_update_self hid n,
        findAmong?_updateAmong_self hid rest]
      cases n.find? t <;> rfl

end

end Node

/-! ## Documents -/

namespace Document

variable {hidden : Nat → String → Bool} {a b c : Document}

/-- A document without the attributes that are hidden. -/
def mask (hidden : Nat → String → Bool) (doc : Document) : Document :=
  { doc with
    root := doc.root.mask hidden
    detached := doc.detached.map (·.mask hidden) }

/-- Two documents are equal but for hidden attributes. -/
def AgreeOutside (hidden : Nat → String → Bool) (a b : Document) : Prop :=
  a.mask hidden = b.mask hidden

theorem AgreeOutside.refl (doc : Document) : AgreeOutside hidden doc doc := rfl

theorem AgreeOutside.trans (hab : AgreeOutside hidden a b)
    (hbc : AgreeOutside hidden b c) :
    AgreeOutside hidden a c :=
  Eq.trans hab hbc

theorem trees_mask (doc : Document) :
    (doc.mask hidden).trees = doc.trees.map (·.mask hidden) :=
  rfl

theorem find?_mask (doc : Document) (t : Nat) :
    (doc.mask hidden).find? t = (doc.find? t).map (Node.mask hidden) := by
  rw [find?_eq_findAmong?, find?_eq_findAmong?, trees_mask,
    ← Node.maskAmong_eq_map, Node.findAmong?_maskAmong]

theorem agreeOutside_update {t : Nat} {change : Node → Node}
    (h : ∀ m : Node, m.id = t → (change m).mask hidden = m.mask hidden)
      (doc : Document) :
    AgreeOutside hidden (doc.update t change) doc := by
  simp only [AgreeOutside, mask, update, Node.mask_update h, List.map_map,
    Function.comp_def]

theorem agreeOutside_put {t : Nat} {name : String} (h : hidden t name = true)
    (value : String) (doc : Document) :
    AgreeOutside hidden
      (doc.update t fun n => n.withAttributes (n.attributes.put name value))
        doc := by
  refine agreeOutside_update (fun n hid => Node.mask_withAttributes ?_) doc
  exact Attributes.filter_put (fun name => !hidden n.id name)
    (by rw [hid, h]; rfl) _ value

theorem agreeOutside_erase {t : Nat} {name : String} (h : hidden t name = true)
    (doc : Document) :
    AgreeOutside hidden (doc.update t fun n =>
      n.withAttributes (n.attributes.erase name)) doc := by
  refine agreeOutside_update (fun n hid => Node.mask_withAttributes ?_) doc
  exact Attributes.filter_erase (fun name => !hidden n.id name)
    (by rw [hid, h]; rfl) _

theorem find?_update_self {t : Nat} {change : Node → Node}
    (hid : ∀ m, (change m).id = m.id) (doc : Document) :
    (doc.update t change).find? t = (doc.find? t).map change := by
  rw [find?_eq_findAmong?, find?_eq_findAmong?, trees_update,
    Node.findAmong?_updateAmong_self hid]

/-- The attributes of the node of a number. -/
def attributesOf? (doc : Document) (t : Nat) : Option Attributes :=
  (doc.find? t).map Node.attributes

/-- A number is that of an element of a document. -/
def HasElement (doc : Document) (t : Nat) : Prop :=
  (doc.find? t).map Node.isElement = some true

/-- The value of an attribute of the node of a number. -/
def attribute? (doc : Document) (t : Nat) (name : String) : Option String :=
  (doc.find? t).bind (·.attribute? name)

theorem attribute?_put {doc : Document} {t : Nat} (h : doc.HasElement t)
    (name value : String) :
    (doc.update t fun n => n.withAttributes
      (n.attributes.put name value)).attribute? t name =
      some value := by
  rw [attribute?, find?_update_self fun n => Node.id_withAttributes n _]
  obtain ⟨n, hn, helement⟩ := Option.map_eq_some_iff.1 h
  rw [hn]
  cases n with
  | element i tag as text cs tail => exact Attributes.value?_put as name value
  | comment i content tail => cases helement

theorem attribute?_erase (doc : Document) (t : Nat) (name : String) :
    (doc.update t fun n => n.withAttributes
      (n.attributes.erase name)).attribute? t name =
      none := by
  rw [attribute?, find?_update_self fun n => Node.id_withAttributes n _]
  cases doc.find? t with
  | none => rfl
  | some n =>
      cases n with
      | element i tag as text cs tail => exact Attributes.value?_erase as name
      | comment i content tail => rfl

theorem AgreeOutside.find?_eq (h : AgreeOutside hidden a b) (t : Nat) :
    (a.find? t).map (Node.mask hidden) =
      (b.find? t).map (Node.mask hidden) := by
  rw [← find?_mask, h, find?_mask]

/-- What does not depend on hidden attributes is read off both documents
alike. -/
theorem AgreeOutside.map_find?_eq {α : Type} {read : Node → α}
    (h : AgreeOutside hidden a b) {t : Nat}
    (hread : ∀ n : Node, n.id = t → read (n.mask hidden) = read n) :
    (a.find? t).map read = (b.find? t).map read := by
  have hvisible : ∀ doc : Document, (doc.find? t).map read =
      ((doc.find? t).map (Node.mask hidden)).map read := by
    intro doc
    cases hn : doc.find? t with
    | none => rfl
    | some n =>
        rw [find?_eq_findAmong?] at hn
        exact congrArg some (hread n (Node.findAmong?_some hn).1).symm
  rw [hvisible, hvisible, h.find?_eq]

theorem AgreeOutside.attributesOf?_eq (h : AgreeOutside hidden a b) {t : Nat}
    (ht : ∀ name, hidden t name = false) : a.attributesOf? t =
      b.attributesOf? t :=
  h.map_find?_eq fun _ hid => Node.attributes_mask_of_visible fun name =>
    hid ▸ ht name

theorem AgreeOutside.hasElement_iff (h : AgreeOutside hidden a b) {t : Nat} :
    a.HasElement t ↔ b.HasElement t := by
  rw [HasElement, HasElement, h.map_find?_eq fun n _ => Node.isElement_mask n]

theorem AgreeOutside.attribute?_eq (h : AgreeOutside hidden a b) {t : Nat}
    {name : String} (ht : hidden t name = false) :
    a.attribute? t name = b.attribute? t name := by
  have hjoin : ∀ doc : Document, doc.attribute? t name =
      ((doc.find? t).map (·.attribute? name)).join := by
    intro doc
    rw [attribute?]
    cases doc.find? t <;> rfl
  rw [hjoin, hjoin, h.map_find?_eq fun _ hid => Node.attribute?_mask (hid ▸ ht)]

end Document

end SheetBinding
