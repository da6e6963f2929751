import SheetBinding.Markup.Reader
import SheetBinding.Proofs.Markup.Numbers

/-!
# Where numbering starts shows in the numbers only

The reader of markup takes the first free number as an argument and numbers the
nodes it makes from there on. Nothing else that it does depends on the number:
`readContent_add` says that starting later by `d` gives the same answer with
every number raised by `d`. So two readings of one text differ in their numbers
only.

The equation is carried through the reader layer by layer: the stack of open
elements, the loop over the pieces, the parts of a document that are supplied
when they are left out.
-/

namespace SheetBinding

namespace Node

mutual

/-- A node with other numbers, at it and below it. -/
def renumber (f : Nat → Nat) : Node → Node
  | element i tag as text cs tail =>
    element (f i) tag as text (renumberAmong f cs) tail
  | comment i content tail => comment (f i) content tail

/-- Nodes with other numbers. -/
def renumberAmong (f : Nat → Nat) : List Node → List Node
  | [] => []
  | n :: rest => n.renumber f :: renumberAmong f rest

end

theorem renumberAmong_eq_map (f : Nat → Nat) (ns : List Node) :
    renumberAmong f ns = ns.map (·.renumber f) := by
  induction ns with
  | nil => rw [renumberAmong, List.map_nil]
  | cons n rest ih => rw [renumberAmong, ih, List.map_cons]

mutual

theorem ids_renumber (f : Nat → Nat) (n : Node) :
    (n.renumber f).ids = n.ids.map f := by
  match n with
  | element i tag as text cs tail =>
      rw [renumber, ids, ids, idsAmong_renumberAmong, List.map_cons]
  | comment i content tail =>
      rw [renumber, ids, ids, List.map_cons, List.map_nil]

theorem idsAmong_renumberAmong (f : Nat → Nat) (ns : List Node) :
    idsAmong (renumberAmong f ns) = (idsAmong ns).map f := by
  match ns with
  | [] => rw [renumberAmong, idsAmong, List.map_nil]
  | n :: rest =>
      rw [renumberAmong, idsAmong, idsAmong, ids_renumber,
        idsAmong_renumberAmong, List.map_append]

end

mutual

theorem renumber_renumber (f g : Nat → Nat) (n : Node) :
    (n.renumber f).renumber g = n.renumber fun i => g (f i) := by
  match n with
  | element i tag as text cs tail =>
      rw [renumber, renumber, renumber, renumberAmong_renumberAmong]
  | comment i content tail => simp only [renumber]

theorem renumberAmong_renumberAmong (f g : Nat → Nat) (ns : List Node) :
    renumberAmong g (renumberAmong f ns) =
      renumberAmong (fun i => g (f i)) ns := by
  match ns with
  | [] => simp only [renumberAmong]
  | n :: rest =>
      rw [renumberAmong, renumberAmong, renumberAmong, renumber_renumber,
        renumberAmong_renumberAmong]

end

@[simp] theorem tag?_renumber (f : Nat → Nat) (n : Node) :
    (n.renumber f).tag? = n.tag? := by
  cases n <;> simp only [renumber, tag?]

@[simp] theorem text_renumber (f : Nat → Nat) (n : Node) :
    (n.renumber f).text = n.text := by
  cases n <;> simp only [renumber, text]

@[simp] theorem tail_renumber (f : Nat → Nat) (n : Node) :
    (n.renumber f).tail = n.tail := by
  cases n <;> simp only [renumber, tail]

@[simp] theorem children_renumber (f : Nat → Nat) (n : Node) :
    (n.renumber f).children = renumberAmong f n.children := by
  cases n <;> simp only [renumber, children, renumberAmong]

theorem renumber_withTail (f : Nat → Nat) (n : Node) (s : String) :
    (n.withTail s).renumber f = (n.renumber f).withTail s := by
  cases n <;> simp only [renumber, withTail]

theorem renumber_addTail (f : Nat → Nat) (n : Node) (s : String) :
    (n.addTail s).renumber f = (n.renumber f).addTail s := by
  rw [addTail, addTail, renumber_withTail, tail_renumber]

theorem renumber_withContent (f : Nat → Nat) (n : Node) (s : String)
    (cs : List Node) :
    (n.withContent s cs).renumber f =
      (n.renumber f).withContent s (renumberAmong f cs) := by
  cases n <;> simp only [renumber, withContent]

end Node

namespace Markup

open Node

/-- What an element holds, with other numbers. -/
def Content.renumber (f : Nat → Nat) (c : Content) : Content :=
  ⟨c.text, renumberAmong f c.children⟩

/-- An open element with other numbers. -/
def Open.renumber (f : Nat → Nat) (o : Open) : Open :=
  ⟨f o.id, o.tag, o.attributes, o.text, renumberAmong f o.reversed⟩

/-! ## Open elements -/

section Stack

variable (f : Nat → Nat)

theorem renumber_addText (o : Open) (s : String) :
    (o.addText s).renumber f = (o.renumber f).addText s := by
  obtain ⟨i, tag, as, text, reversed⟩ := o
  cases reversed with
  | nil => simp only [Open.addText, Open.renumber, renumberAmong]
  | cons n rest =>
      simp only [Open.addText, Open.renumber, renumberAmong, renumber_addTail]

theorem renumber_addNode (o : Open) (n : Node) :
    (o.addNode n).renumber f = (o.renumber f).addNode (n.renumber f) := by
  simp only [Open.addNode, Open.renumber, renumberAmong]

theorem renumber_close (o : Open) :
    o.close.renumber f = (o.renumber f).close := by
  simp only [Open.close, Open.renumber, Node.renumber, renumberAmong_eq_map,
    List.map_reverse]

theorem renumber_closeInto (inner outer : Open) :
    (closeInto inner outer).renumber f =
      closeInto (inner.renumber f) (outer.renumber f) := by
  rw [closeInto, closeInto, renumber_addNode, renumber_close]

theorem renumber_closeAll (inner : Open) (outer : List Open) :
    (closeAll inner outer).renumber f =
      closeAll (inner.renumber f) (outer.map (Open.renumber f)) := by
  induction outer generalizing inner with
  | nil => rfl
  | cons o rest ih =>
      rw [closeAll, ih, renumber_closeInto, List.map_cons, closeAll]

theorem renumber_closeTag? (tag : String) (inner : Open) (outer : List Open) :
    closeTag? tag (inner.renumber f) (outer.map (Open.renumber f)) =
      (closeTag? tag inner outer).map fun s =>
        (s.1.renumber f, s.2.map (Open.renumber f)) := by
  induction outer generalizing inner with
  | nil => rfl
  | cons o rest ih =>
      rw [List.map_cons, closeTag?, closeTag?, ← renumber_closeInto, ih]
      rw [show (inner.renumber f).tag = inner.tag from rfl]
      split <;> rfl

end Stack

/-! ## The loop over the pieces -/

theorem build_add (d next : Nat) (inner : Open) (outer : List Open)
    (ps : List Piece) :
    build (d + next) (inner.renumber (d + ·))
      (outer.map (Open.renumber (d + ·))) ps =
      ((build next inner outer ps).1.renumber (d + ·), d +
        (build next inner outer ps).2) := by
  induction ps generalizing next inner outer with
  | nil =>
      simp only [build]
      rw [← renumber_closeAll]
      simp only [Content.renumber, Open.renumber, renumberAmong_eq_map,
        List.map_reverse]
  | cons p ps ih =>
      cases p with
      | text s =>
          rw [build, ← renumber_addText, ih, build]
      | comment s =>
          have hnode : Node.comment (d + next) s "" =
              (Node.comment next s "").renumber (d + ·) := by
            rw [Node.renumber]
          rw [build, hnode, ← renumber_addNode, Nat.add_assoc, ih, build]
      | opening tag as =>
          have hopen : (⟨d + next, tag, as, "", []⟩ : Open) =
              (⟨next, tag, as, "", []⟩ : Open).renumber (d + ·) := by
            rw [Open.renumber, renumberAmong]
          simp only [build, hopen]
          split
          · rw [← renumber_close, ← renumber_addNode, Nat.add_assoc, ih]
          · rw [← List.map_cons, Nat.add_assoc, ih]
      | closing tag =>
          rw [build, build, renumber_closeTag?]
          cases closeTag? tag inner outer with
          | none => exact ih ..
          | some s => exact ih ..

theorem contentOf_add (s : String) (d next : Nat) :
    contentOf s (d + next) =
      ((contentOf s next).1.renumber (d + ·), d + (contentOf s next).2) := by
  rw [contentOf, contentOf, ← build_add]
  rfl

/-! ## Whole documents -/

theorem findTag?_renumber (f : Nat → Nat) (tag : String) (ns : List Node) :
    findTag? tag (renumberAmong f ns) =
      (findTag? tag ns).map (·.renumber f) := by
  rw [findTag?, findTag?, renumberAmong_eq_map, List.find?_map]
  congr 2
  funext n
  simp

theorem any_renumberAmong {p : Node → Bool} (f : Nat → Nat)
    (hp : ∀ n, p (n.renumber f) = p n) (ns : List Node) :
    (renumberAmong f ns).any p = ns.any p := by
  rw [renumberAmong_eq_map, List.any_map]
  exact congrArg (ns.any ·) (funext hp)

theorem isPart_renumber (f : Nat → Nat) (n : Node) :
    isPart (n.renumber f) = isPart n := by
  simp only [isPart, tag?_renumber]

theorem inHead_renumber (f : Nat → Nat) (n : Node) :
    inHead (n.renumber f) = inHead n := by
  simp only [inHead, tag?_renumber]

theorem takeWhile_inHead_renumber (f : Nat → Nat) (ns : List Node) :
    (renumberAmong f ns).takeWhile inHead =
      renumberAmong f (ns.takeWhile inHead) := by
  induction ns with
  | nil => rfl
  | cons n rest ih =>
      rw [renumberAmong, List.takeWhile_cons, List.takeWhile_cons,
        inHead_renumber, ih]
      split <;> rfl

theorem renumberAmong_append (f : Nat → Nat) (l₁ l₂ : List Node) :
    renumberAmong f (l₁ ++ l₂) = renumberAmong f l₁ ++ renumberAmong f l₂ := by
  simp only [renumberAmong_eq_map, List.map_append]

theorem renumberAmong_drop (f : Nat → Nat) (k : Nat) (ns : List Node) :
    renumberAmong f (ns.drop k) = (renumberAmong f ns).drop k := by
  simp only [renumberAmong_eq_map, List.map_drop]

theorem length_renumberAmong (f : Nat → Nat) (ns : List Node) :
    (renumberAmong f ns).length = ns.length := by
  rw [renumberAmong_eq_map, List.length_map]

theorem isEmpty_renumberAmong (f : Nat → Nat) (ns : List Node) :
    (renumberAmong f ns).isEmpty = ns.isEmpty := by
  rw [renumberAmong_eq_map, List.isEmpty_map]

theorem supplyParts_add (c : Content) (d next : Nat) :
    supplyParts (c.renumber (d + ·)) (d + next) =
      (renumberAmong (d + ·) (supplyParts c next).1, d +
        (supplyParts c next).2) := by
  have htext : (c.renumber (d + ·)).text = c.text := rfl
  have hchildren : (c.renumber (d + ·)).children =
      renumberAmong (d + ·) c.children := rfl
  simp only [supplyParts, htext, hchildren, takeWhile_inHead_renumber]
  generalize (if Text.allBlank c.text = true then "" else c.text) = shown
  by_cases h : (shown == "") = true
  · simp only [h, if_true, length_renumberAmong, isEmpty_renumberAmong,
      ← renumberAmong_drop, renumberAmong_append]
    cases (c.children.takeWhile inHead).isEmpty <;>
      cases (c.children.drop (c.children.takeWhile inHead).length).isEmpty <;>
        simp [renumberAmong, Node.renumber, Nat.add_assoc]
  · simp [h, renumberAmong, Node.renumber, Nat.add_assoc]

theorem documentElement?_add (c : Content) (d next : Nat) :
    documentElement? (c.renumber (d + ·)) (d + next) =
      (documentElement? c next).map fun r =>
        (r.1.renumber (d + ·), d + r.2) := by
  have htext : (c.renumber (d + ·)).text = c.text := rfl
  have hchildren : (c.renumber (d + ·)).children =
      renumberAmong (d + ·) c.children := rfl
  rw [documentElement?, documentElement?, htext, hchildren, findTag?_renumber]
  cases findTag? "html" c.children with
  | some top =>
      simp only [Option.map_some, children_renumber,
        any_renumberAmong _ (isPart_renumber _)]
      split
      · simp only [Option.map_some, renumber_withTail]
      · have := supplyParts_add ⟨top.text, top.children⟩ d next
        simp only [Content.renumber] at this
        simp only [text_renumber, this, Option.map_some, renumber_withTail,
          renumber_withContent]
  | none =>
      have hall : (renumberAmong (d + ·) c.children).all (fun n => !isPart n) =
          c.children.all fun n => !isPart n := by
        simp only [renumberAmong_eq_map, List.all_map, Function.comp_def,
          isPart_renumber]
      simp only [Option.map_none, isEmpty_renumberAmong, hall, supplyParts_add]
      split
      · rfl
      · split
        · simp only [Option.map_some, Node.renumber, Nat.add_assoc]
        · simp only [Option.map_some, Node.renumber, renumberAmong_eq_map,
            List.map_map, Function.comp_def, renumber_withTail, Nat.add_assoc]

theorem renumber_dropBlankText (f : Nat → Nat) (c : Content) :
    (c.renumber f).dropBlankText = c.dropBlankText.renumber f := by
  rw [Content.dropBlankText, Content.dropBlankText,
    show (c.renumber f).text = c.text from rfl]
  split <;> rfl

/-- Reading content from a number that is higher by `d` gives the same content
with every number higher by `d`. -/
theorem readContent_add (s : String) (d next : Nat) :
    readContent s (d + next) =
      (readContent s next).map fun r => (r.1.renumber (d + ·), d + r.2) := by
  rw [readContent, readContent, readDocument?, readDocument?, contentOf_add]
  split
  · simp only [documentElement?_add]
    cases documentElement? (contentOf s next).1 (contentOf s next).2 with
    | none => rfl
    | some r =>
        simp only [Option.map_some, children_renumber, findTag?_renumber]
        cases findTag? "body" r.1.children with
        | none => rfl
        | some body =>
            have hbody :
                (⟨body.text, renumberAmong (d + ·) body.children⟩ : Content) =
                  Content.renumber (d + ·) ⟨body.text, body.children⟩ := rfl
            simp only [Option.map_some, text_renumber, children_renumber]
            rw [hbody, renumber_dropBlankText]
            rfl
  · simp only [renumber_dropBlankText]
    rfl

end Markup

end SheetBinding
