import SheetBinding.Markup.Node

/-!
Places in a tree: a node together with the way up from it. From a place one
reaches the parent, the siblings on either side, and everything below, and
`places` lists all places of a tree in document order.
-/

namespace SheetBinding

/-- One step up: the parent, and the siblings before the node, nearest first,
and after it. -/
structure Level where
  parent : Node
  before : List Node
  after : List Node

/-- A node and the steps up from it, nearest first. -/
structure Place where
  node : Node
  levels : List Level

namespace Place

/-- The place of the top of a tree. -/
def top (root : Node) : Place :=
  ⟨root, []⟩

/-- The place of the parent. -/
def parent? (p : Place) : Option Place :=
  match p.levels with
  | [] => none
  | level :: rest => some ⟨level.parent, rest⟩

/-- Where the steps of `levels` lead, nearest first. -/
def ancestorsOf : List Level → List Place
  | [] => []
  | level :: rest => ⟨level.parent, rest⟩ :: ancestorsOf rest

/-- The places above, nearest first. -/
def ancestors (p : Place) : List Place :=
  ancestorsOf p.levels

/-- The places of siblings going left: `rest` are those still to come, nearest
first. -/
def leftward (parent : Node) (up : List Level) (after : List Node) :
    List Node → List Place
  | [] => []
  | n :: rest =>
    ⟨n, ⟨parent, rest, after⟩ :: up⟩ :: leftward parent up (n :: after) rest

/-- The places of siblings going right: `rest` are those still to come, in
order. -/
def rightward (parent : Node) (up : List Level) (before : List Node) :
    List Node → List Place
  | [] => []
  | n :: rest =>
    ⟨n, ⟨parent, before, rest⟩ :: up⟩ :: rightward parent up (n :: before) rest

/-- The siblings before a place, nearest first. -/
def preceding (p : Place) : List Place :=
  match p.levels with
  | [] => []
  | level :: up => leftward level.parent up (p.node :: level.after) level.before

/-- The siblings after a place, in order. -/
def following (p : Place) : List Place :=
  match p.levels with
  | [] => []
  | level :: up =>
    rightward level.parent up (p.node :: level.before) level.after

/-- The places of the children, in order. -/
def children (p : Place) : List Place :=
  rightward p.node p.levels [] p.node.children

end Place

mutual

/-- A node's place and all places below it, in document order, `levels` being
the steps up. -/
def Node.placesUnder (levels : List Level) : Node → List Place
  | .element i tag as text cs tail =>
    let node := Node.element i tag as text cs tail
    ⟨node, levels⟩ :: Node.placesAmong node levels [] cs
  | .comment i content tail => [⟨.comment i content tail, levels⟩]

/-- The places at and below the nodes of a list of siblings, `before` holding
those already passed. -/
def Node.placesAmong (parent : Node) (up : List Level) (before : List Node) :
    List Node → List Place
  | [] => []
  | n :: rest =>
    n.placesUnder (⟨parent, before, rest⟩ :: up) ++ Node.placesAmong parent up
      (n :: before) rest

end

namespace Place

/-- A place and all places below it, in document order. -/
def selfAndBelow (p : Place) : List Place :=
  p.node.placesUnder p.levels

/-- All places below a place, in document order. -/
def below (p : Place) : List Place :=
  p.selfAndBelow.tail

/-- Whether an element stands at a place. -/
def isElement (p : Place) : Bool :=
  p.node.isElement

/-- The number of the node at a place. -/
def id (p : Place) : Nat :=
  p.node.id

/-- Where a place stands in its tree, as child indices from the top. -/
def path (p : Place) : List Nat :=
  (p.levels.map (·.before.length)).reverse

end Place

/-- All places of a tree, in document order. -/
def Node.places (root : Node) : List Place :=
  (Place.top root).selfAndBelow

end SheetBinding
