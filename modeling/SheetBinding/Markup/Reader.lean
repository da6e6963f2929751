import SheetBinding.Markup.Node
import SheetBinding.Markup.Piece
import SheetBinding.Text.Blank
import SheetBinding.Text.Lowercase

/-!
Reading markup as a tree. An end tag closes the innermost open element of its
name, and with it all that were opened inside; an end tag of no open element is
let pass, and what is still open at the end is closed there. A start tag closes
nothing, so markup that leaves out end tags, as of items in a list, is read as
elements inside one another. Nodes are numbered in document order.
-/

namespace SheetBinding.Markup

/-- What an element holds: the text before its first child, and its children. -/
structure Content where
  text : String
  children : List Node
  deriving Repr, Inhabited

/-- An element that is still open, its children latest first. -/
structure Open where
  id : Nat
  tag : String
  attributes : Attributes
  text : String
  reversed : List Node

/-- What surrounds all elements. It is never closed, so it may have any
number. -/
def Open.outside (id : Nat) : Open :=
  ⟨id, "", [], "", []⟩

/-- Adds text after all that an element holds. -/
def Open.addText (o : Open) (s : String) : Open :=
  match o.reversed with
  | [] => { o with text := o.text ++ s }
  | n :: rest => { o with reversed := n.addTail s :: rest }

/-- Adds a child. -/
def Open.addNode (o : Open) (n : Node) : Open :=
  { o with reversed := n :: o.reversed }

/-- The element, closed. -/
def Open.close (o : Open) : Node :=
  .element o.id o.tag o.attributes o.text o.reversed.reverse ""

/-- Closes an element inside another. -/
def closeInto (inner outer : Open) : Open :=
  outer.addNode inner.close

/-- Closes all elements that are open. -/
def closeAll (inner : Open) : List Open → Open
  | [] => inner
  | outer :: rest => closeAll (closeInto inner outer) rest

/-- Closes elements up to the innermost one of a tag. Nothing if none is of that
tag. -/
def closeTag? (tag : String) (inner : Open) :
    List Open → Option (Open × List Open)
  | [] => none
  | outer :: rest =>
    if inner.tag == tag then some (closeInto inner outer, rest)
    else closeTag? tag (closeInto inner outer) rest

/-- Builds a tree from pieces: `inner` is the innermost open element, `outer`
those around it, and `next` the next free number. -/
def build (next : Nat) (inner : Open) (outer : List Open) :
    List Piece → Content × Nat
  | [] =>
    let all := closeAll inner outer
    (⟨all.text, all.reversed.reverse⟩, next)
  | piece :: rest =>
    match piece with
    | .text s => build next (inner.addText s) outer rest
    | .comment s =>
      build (next + 1) (inner.addNode (.comment next s "")) outer rest
    | .opening tag attributes =>
      let opened : Open := ⟨next, tag, attributes, "", []⟩
      if voidElements.contains tag then
        build (next + 1) (inner.addNode opened.close) outer rest
      else build (next + 1) opened (inner :: outer) rest
    | .closing tag =>
      match closeTag? tag inner outer with
      | some (inner, outer) => build next inner outer rest
      | none => build next inner outer rest

/-- What a text holds, its nodes numbered from `next` on, and the next free
number after them. -/
def contentOf (s : String) (next : Nat) : Content × Nat :=
  build next (.outside next) [] (pieces s)

/-- The first node of a tag. -/
def findTag? (tag : String) (nodes : List Node) : Option Node :=
  nodes.find? fun n => n.tag? == some tag

/-- Whether a node belongs into the head of a document. -/
def inHead (n : Node) : Bool :=
  n.tag?.any headElements.contains

/-- The head and the body of a document whose tags are left out: what belongs
into the head goes there as long as nothing else has been met. A part that would
hold nothing is left out too. -/
def supplyParts (c : Content) (next : Nat) : List Node × Nat :=
  let text := if Text.allBlank c.text then "" else c.text
  let heads := if text == "" then c.children.takeWhile inHead else []
  let others := c.children.drop heads.length
  let head : List Node := if heads.isEmpty then []
    else [.element next "head" [] "" heads ""]
  let body : List Node :=
    if text == "" && others.isEmpty then []
    else [.element (next + head.length) "body" [] text others ""]
  (head ++ body, next + head.length + body.length)

/-- Whether a node is one of the two parts of a document. -/
def isPart (n : Node) : Bool :=
  n.tag? == some "head" || n.tag? == some "body" || n.tag? == some "frameset"

/-- The document element of what a text holds, with what is missing supplied.
Nothing if the text holds nothing but blanks. -/
def documentElement? (c : Content) (next : Nat) : Option (Node × Nat) :=
  match findTag? "html" c.children with
  | some top =>
    if top.children.any isPart then some (top.withTail "", next)
    else
      let (parts, next) := supplyParts ⟨top.text, top.children⟩ next
      some ((top.withContent "" parts).withTail "", next)
  | none =>
    if c.children.isEmpty && Text.allBlank c.text then none
    else
      let outside (n : Node) : Bool := !isPart n
      if c.children.all outside then
        let (parts, next) := supplyParts c next
        some (.element next "html" [] "" parts "", next + 1)
      else some (.element next "html" [] "" (c.children.map (·.withTail "")) "",
        next + 1)

/-- Reads a text as a document. Nothing if it holds nothing but blanks. -/
def readDocument? (s : String) (next : Nat) : Option (Node × Nat) :=
  let (content, next) := contentOf s next
  documentElement? content next

/-- Whether a text begins, blanks left aside, as a whole document does. -/
def looksWhole (s : String) : Bool :=
  let start :=
    Text.asciiLowercase (String.ofList ((Text.trimStart s.toList).take 9))
  start.startsWith "<html" || start.startsWith "<!doctype"

/-- Why a text cannot be put into an element. -/
inductive ContentError where
  /-- It is a whole document that holds nothing. -/
  | empty
  /-- It is a whole document without a body. -/
  | noBody
  deriving DecidableEq, Repr

/-- The text of an error. -/
def ContentError.message : ContentError → String
  | empty => "Document is empty"
  | noBody => "Document has no body"

/-- Content whose text is dropped if it is all blanks. -/
def Content.dropBlankText (c : Content) : Content :=
  if Text.allBlank c.text then { c with text := "" } else c

/-- Reads what is to be put into an element; of a whole document that is what
its body holds. Text at the front that is all blanks is dropped. -/
def readContent (s : String) (next : Nat) :
    Except ContentError (Content × Nat) :=
  if looksWhole s then
    match readDocument? s next with
    | none => .error .empty
    | some (top, next) =>
      match findTag? "body" top.children with
      | none => .error .noBody
      | some body =>
        .ok (Content.dropBlankText ⟨body.text, body.children⟩, next)
  else
    let (content, next) := contentOf s next
    .ok (content.dropBlankText, next)

end SheetBinding.Markup
