import SheetBinding.Markup.Node

/-!
A document while it is being changed: its tree, and the trees of the nodes that
have been taken out of it. A node that was taken out lives on as the top of a
tree of its own, so whoever still holds its number can go on changing it, unseen
in the document.
-/

namespace SheetBinding

/-- A tree, the trees taken out of it, latest first, and the first number not
yet given to a node. -/
structure Document where
  root : Node
  detached : List Node
  nextId : Nat
  deriving Inhabited

namespace Document

/-- The document's own tree and all trees taken out of it. -/
def trees (doc : Document) : List Node :=
  doc.root :: doc.detached

/-- The node of the given number, in the document or out of it. -/
def find? (doc : Document) (target : Nat) : Option Node :=
  doc.trees.findSome? (·.find? target)

/-- The top of the tree that holds the node of the given number. -/
def topOf? (doc : Document) (target : Nat) : Option Node :=
  doc.trees.find? fun top => (top.find? target).isSome

/-- Where the node of the given number stands in its tree. -/
def pathOf? (doc : Document) (target : Nat) : Option (List Nat) :=
  doc.trees.findSome? (·.pathTo? target)

/-- Whether the node of the given number is the top of its tree. -/
def isTop (doc : Document) (target : Nat) : Bool :=
  doc.trees.any (·.id == target)

/-- Changes the node of the given number, wherever it is. -/
def update (doc : Document) (target : Nat) (change : Node → Node) : Document :=
  { doc with
    root := doc.root.update target change
    detached := doc.detached.map (·.update target change) }

/-- Takes nodes up as trees of their own, without the text that followed
them. -/
def adopt (doc : Document) (nodes : List Node) : Document :=
  { doc with detached := nodes.map (·.withTail "") ++ doc.detached }

/-- Takes the node of the given number out of its tree; its tail stays. The top
of a tree cannot be taken out and stays where it is. -/
def remove (doc : Document) (target : Nat) : Document :=
  if doc.isTop target then doc
  else
    match doc.find? target with
    | none => doc
    | some node =>
      { doc with
        root := doc.root.remove target
        detached := node.withTail "" :: doc.detached.map (·.remove target) }

/-- Empties the element of the given number: its children become trees of their
own, without the text that followed them, and its text is dropped. -/
def clear (doc : Document) (target : Nat) : Document :=
  match doc.find? target with
  | none => doc
  | some node => (doc.update target (·.withContent "" [])).adopt node.children

end Document

end SheetBinding
