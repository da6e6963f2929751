import SheetBinding.Proofs.Markup.Masking

/-!
# Places of a tree from which attributes are left out

Leaving out attributes moves no node. So the places of a tree without them are
the places of the whole tree, each without the same attributes at it and around
it (`Node.places_mask`), and from one place to another the ways are as they
were.
-/

namespace SheetBinding

variable {hidden : Nat → String → Bool}

namespace Node

theorem tag?_mask (n : Node) : (n.mask hidden).tag? = n.tag? := by
  cases n with
  | element i tag as text cs tail =>
      rw [mask]
      rfl
  | comment i content tail => rw [mask]

theorem tail_mask (n : Node) : (n.mask hidden).tail = n.tail := by
  cases n with
  | element i tag as text cs tail =>
      rw [mask]
      rfl
  | comment i content tail => rw [mask]

mutual

theorem textContent_mask (n : Node) :
    (n.mask hidden).textContent = n.textContent := by
  match n with
  | element i tag as text cs tail =>
      rw [mask, textContent, textContent, textContents_maskAmong cs]
  | comment i content tail => rw [mask]

theorem textContents_maskAmong (ns : List Node) :
    textContents (maskAmong hidden ns) = textContents ns := by
  match ns with
  | [] => rw [maskAmong]
  | n :: rest =>
      rw [maskAmong, textContents, textContents, textContent_mask n,
        tail_mask n, textContents_maskAmong rest]

end

end Node

/-- A level with attributes of its nodes hidden. -/
def Level.mask (hidden : Nat → String → Bool) (level : Level) : Level where
  parent := level.parent.mask hidden
  before := level.before.map (Node.mask hidden)
  after := level.after.map (Node.mask hidden)

/-- A place in a tree from which attributes are left out. -/
def Place.mask (hidden : Nat → String → Bool) (p : Place) : Place where
  node := p.node.mask hidden
  levels := p.levels.map (Level.mask hidden)

namespace Node

mutual

theorem placesUnder_mask (levels : List Level) (n : Node) :
    (n.mask hidden).placesUnder (levels.map (Level.mask hidden)) =
      (n.placesUnder levels).map (Place.mask hidden) := by
  match n with
  | element i tag as text cs tail =>
      have hcs := placesAmong_mask (element i tag as text cs tail) levels [] cs
      rw [mask, List.map_nil, ← maskAmong_eq_map] at hcs
      rw [mask, placesUnder, placesUnder, hcs, List.map_cons, Place.mask, mask]
  | comment i content tail =>
      rw [mask, placesUnder, placesUnder, List.map_singleton, Place.mask, mask]

theorem placesAmong_mask (parent : Node) (up : List Level)
    (before ns : List Node) :
    placesAmong (parent.mask hidden) (up.map (Level.mask hidden))
      (before.map (mask hidden))
        (ns.map (mask hidden)) =
      (placesAmong parent up before ns).map (Place.mask hidden) := by
  match ns with
  | [] => rw [List.map_nil, placesAmong, placesAmong, List.map_nil]
  | n :: rest =>
      have hn := placesUnder_mask (⟨parent, before, rest⟩ :: up) n
      have hrest := placesAmong_mask parent up (n :: before) rest
      rw [List.map_cons] at hn hrest
      rw [List.map_cons, placesAmong, placesAmong, List.map_append,
        ← hn, ← hrest]
      rfl

end

end Node

namespace Place

@[simp] theorem isElement_mask (p : Place) :
    (p.mask hidden).isElement = p.isElement :=
  p.node.isElement_mask

@[simp] theorem ancestors_mask (p : Place) :
    (p.mask hidden).ancestors = p.ancestors.map (mask hidden) := by
  obtain ⟨n, levels⟩ := p
  show ancestorsOf (levels.map (Level.mask hidden)) =
    (ancestorsOf levels).map (mask hidden)
  induction levels with
  | nil => rfl
  | cons level up ih =>
      rw [List.map_cons, ancestorsOf, ancestorsOf, ih]
      rfl

end Place

end SheetBinding
