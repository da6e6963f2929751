import SheetBinding.Markup.Attributes

/-!
Documents as trees of elements and comments. Text is kept beside the nodes: an
element's `text` stands before its first child, and a node's `tail` follows it
inside its parent. Every node carries a number of its own, by which it is found
again after the tree has changed.
-/

namespace SheetBinding

/-- An element or a comment, with the text that follows it. -/
inductive Node where
  | element (id : Nat) (tag : String) (attributes : Attributes) (text : String)
      (children : List Node) (tail : String)
  | comment (id : Nat) (content : String) (tail : String)
  deriving Repr, BEq, Inhabited

namespace Node

/-- The number of a node. -/
def id : Node → Nat
  | element i .. => i
  | comment i .. => i

/-- The tag of an element. -/
def tag? : Node → Option String
  | element _ tag .. => some tag
  | comment .. => none

/-- Whether a node is an element, and no comment. -/
def isElement (n : Node) : Bool :=
  n.tag?.isSome

/-- The attributes of an element; a comment has none. -/
def attributes : Node → Attributes
  | element _ _ as .. => as
  | comment .. => []

/-- The value of an attribute of a node. -/
def attribute? (n : Node) (name : String) : Option String :=
  n.attributes.value? name

/-- The text before the first child of an element; for a comment, nothing. The
empty text stands for no text as well, since both are written alike. -/
def text : Node → String
  | element _ _ _ t .. => t
  | comment .. => ""

/-- The children of a node. A comment has none. -/
def children : Node → List Node
  | element _ _ _ _ cs _ => cs
  | comment .. => []

/-- The text that follows a node inside its parent. -/
def tail : Node → String
  | element _ _ _ _ _ t => t
  | comment _ _ t => t

/-- A node with other text behind it. -/
def withTail (n : Node) (tail : String) : Node :=
  match n with
  | element i tag as text cs _ => element i tag as text cs tail
  | comment i content _ => comment i content tail

/-- A node with more text behind it. -/
def addTail (n : Node) (more : String) : Node :=
  n.withTail (n.tail ++ more)

/-- An element with other attributes; a comment stays as it is. -/
def withAttributes (n : Node) (as : Attributes) : Node :=
  match n with
  | element i tag _ text cs tail => element i tag as text cs tail
  | comment .. => n

/-- An element with other content; a comment stays as it is. -/
def withContent (n : Node) (text : String) (children : List Node) : Node :=
  match n with
  | element i tag as _ _ tail => element i tag as text children tail
  | comment .. => n

mutual

/-- The text inside a node, that of comments left out. -/
def textContent : Node → String
  | element _ _ _ text cs _ => text ++ textContents cs
  | comment .. => ""

/-- The text inside and after the nodes of a list. -/
def textContents : List Node → String
  | [] => ""
  | n :: rest => n.textContent ++ n.tail ++ textContents rest

end

mutual

/-- The node of the given number, at or below a node. -/
def find? (target : Nat) : Node → Option Node
  | element i tag as text cs tail =>
    if i == target then some (element i tag as text cs tail)
    else findAmong? target cs
  | comment i content tail =>
    if i == target then some (comment i content tail) else none

/-- The node of the given number, at or below the nodes of a list. -/
def findAmong? (target : Nat) : List Node → Option Node
  | [] => none
  | n :: rest => (n.find? target).or (findAmong? target rest)

end

mutual

/-- Changes the node of the given number, at or below a node. -/
def update (target : Nat) (change : Node → Node) : Node → Node
  | element i tag as text cs tail =>
    if i == target then change (element i tag as text cs tail)
    else element i tag as text (updateAmong target change cs) tail
  | comment i content tail =>
    if i == target then change (comment i content tail)
    else comment i content tail

/-- Changes the node of the given number, at or below the nodes of a list. -/
def updateAmong (target : Nat) (change : Node → Node) : List Node → List Node
  | [] => []
  | n :: rest => n.update target change :: updateAmong target change rest

end

mutual

/-- Takes the node of the given number out from below a node. Its tail stays
behind, joined to the tail of the sibling before it, or to the text of the
parent if it was the first child. -/
def remove (target : Nat) : Node → Node
  | element i tag as text cs tail =>
    match cs with
    | [] => element i tag as text [] tail
    | c :: rest =>
      if c.id == target then element i tag as (text ++ c.tail) rest tail
      else element i tag as text (removeAmong target (c :: rest)) tail
  | comment i content tail => comment i content tail

/-- Takes the node of the given number out of a list, its head excepted, or from
below a node of the list. -/
def removeAmong (target : Nat) : List Node → List Node
  | [] => []
  | [a] => [a.remove target]
  | a :: b :: rest =>
    if b.id == target then a.addTail b.tail :: rest
    else a.remove target :: removeAmong target (b :: rest)

end

mutual

/-- The way down from a node to the one of the given number, as child
indices. -/
def pathTo? (target : Nat) : Node → Option (List Nat)
  | element i _ _ _ cs _ =>
    if i == target then some [] else pathAmong? target 0 cs
  | comment i _ _ => if i == target then some [] else none

/-- The way to the node of the given number from a list whose first node has the
given index. -/
def pathAmong? (target : Nat) (index : Nat) : List Node → Option (List Nat)
  | [] => none
  | n :: rest =>
    match n.pathTo? target with
    | some path => some (index :: path)
    | none => pathAmong? target (index + 1) rest

end

/-- The node that a path leads to from a node. -/
def at? (n : Node) : List Nat → Option Node
  | [] => some n
  | i :: path =>
    match n.children[i]? with
    | some child => child.at? path
    | none => none

end Node

end SheetBinding
