import SheetBinding.Markup.Attributes
import SheetBinding.Markup.Reference
import SheetBinding.Markup.Vocabulary

/-!
Markup as a sequence of pieces: runs of text, tags and comments. Tag and
attribute names are read in lower case, of two attributes of one name the first
counts, and a declaration is no piece at all.
-/

namespace SheetBinding.Markup

/-- A piece of markup, with its character references resolved. -/
inductive Piece where
  | text (content : String)
  | opening (tag : String) (attributes : Attributes)
  | closing (tag : String)
  | comment (content : String)
  deriving Repr

/-- The blanks between the parts of a tag. -/
def isTagBlank (c : Char) : Bool :=
  c == ' ' || c == '\t' || c == '\n' || c == '\x0c' || c == '\r'

/-- A character of a tag name or an attribute name in lower case. -/
def lowered (c : Char) : Char :=
  c.toLower

/-- Takes the name of a tag off the front, in lower case. -/
def takeTag (cs : List Char) : String × List Char :=
  let stops (c : Char) : Bool := isTagBlank c || c == '/' || c == '>'
  (String.ofList ((cs.takeWhile (!stops ·)).map lowered), cs.dropWhile
    (!stops ·))

/-- Takes the name of an attribute off the front, in lower case. -/
def takeAttributeName (cs : List Char) : String × List Char :=
  let stops (c : Char) : Bool :=
    isTagBlank c || c == '/' || c == '>' || c == '='
  (String.ofList ((cs.takeWhile (!stops ·)).map lowered), cs.dropWhile
    (!stops ·))

/-- Reads the value of an attribute from after the equals sign. -/
def takeValue (cs : List Char) : String × List Char :=
  match cs with
  | '"' :: rest =>
    (resolve true (rest.takeWhile (· != '"')),
      (rest.dropWhile (· != '"')).drop 1)
  | '\'' :: rest =>
    (resolve true (rest.takeWhile (· != '\'')),
      (rest.dropWhile (· != '\'')).drop 1)
  | _ =>
    let stops (c : Char) : Bool := isTagBlank c || c == '>'
    (resolve true (cs.takeWhile (!stops ·)), cs.dropWhile (!stops ·))

/-- The value of an attribute that is written without one. -/
def impliedValue (name : String) : String :=
  if booleanAttributes.contains name then name else ""

/-- Adds an attribute unless there is one of its name. -/
def addAttribute (as : Attributes) (name value : String) : Attributes :=
  if as.has name then as else as.put name value

/-- Reads attributes up to the end of the tag, one a round, and drops the end of
the tag. -/
def takeAttributes : Nat → Attributes → List Char → Attributes × List Char
  | 0, as, cs => (as, cs)
  | rounds + 1, as, cs =>
    match cs.dropWhile fun c => isTagBlank c || c == '/' with
    | [] => (as, [])
    | '>' :: rest => (as, rest)
    | '=' :: rest => takeAttributes rounds as rest
    | cs =>
      let (name, rest) := takeAttributeName cs
      match rest.dropWhile isTagBlank with
      | '=' :: after =>
        let (value, rest) := takeValue (after.dropWhile isTagBlank)
        takeAttributes rounds (addAttribute as name value) rest
      | rest =>
        takeAttributes rounds (addAttribute as name (impliedValue name)) rest

/-- Reads a comment up to its end: its content, and what follows. -/
def takeComment : List Char → List Char × List Char
  | [] => ([], [])
  | '-' :: '-' :: '>' :: rest => ([], rest)
  | c :: rest =>
    let (content, after) := takeComment rest
    (c :: content, after)

/-- What follows the end of a tag. -/
def afterTag (cs : List Char) : List Char :=
  (cs.dropWhile (· != '>')).drop 1

/-- Whether a text begins with the end tag of an element. -/
def startsEndTag (tag : String) (cs : List Char) : Bool :=
  let name := tag.toList
  match cs with
  | '<' :: '/' :: rest =>
    (rest.take name.length).map lowered == name &&
      (rest.drop name.length).head?.all fun c => isTagBlank c || c ==
        '/' || c == '>'
  | _ => false

/-- Takes what comes before the end tag of an element whose content holds no
tags. -/
def takeContent (tag : String) : List Char → List Char × List Char
  | [] => ([], [])
  | c :: rest =>
    if startsEndTag tag (c :: rest) then ([], c :: rest)
    else
      let (content, after) := takeContent tag rest
      (c :: content, after)

/-- The piece that the content of such an element is, if there is any. -/
def contentPiece (tag : String) (content : List Char) : List Piece :=
  if content.isEmpty then []
  else if rawElements.contains tag then [.text (String.ofList content)]
  else [.text (resolve false content)]

/-- Reads a start tag from its name on, and the content of an element that holds
no markup. -/
def takeOpening (cs : List Char) : List Piece × List Char :=
  let (tag, rest) := takeTag cs
  let (attributes, rest) := takeAttributes (rest.length + 1) [] rest
  if textElements.contains tag then
    let (content, rest) := takeContent tag rest
    (.opening tag attributes :: contentPiece tag content, rest)
  else ([.opening tag attributes], rest)

/-- Reads what an opening angle bracket begins, from after the bracket. Nothing
if it begins no markup and stands for itself. -/
def takeMarkup? (cs : List Char) : Option (List Piece × List Char) :=
  match cs with
  | '!' :: '-' :: '-' :: rest =>
    let (content, after) := takeComment rest
    some ([.comment (String.ofList content)], after)
  | '!' :: rest => some ([], afterTag rest)
  | '?' :: rest => some ([], afterTag rest)
  | '/' :: c :: rest =>
    if c.isAlpha then
      let (tag, after) := takeTag (c :: rest)
      some ([.closing tag], afterTag after)
    else some ([], afterTag (c :: rest))
  | c :: rest => if c.isAlpha then some (takeOpening (c :: rest)) else none
  | [] => none

/-- The pieces of a text, each round reading a tag, a comment or a run of
text. -/
def piecesWithin : Nat → List Char → List Piece
  | 0, _ => []
  | _, [] => []
  | rounds + 1, c :: rest =>
    match if c == '<' then takeMarkup? rest else none with
    | some (pieces, after) => pieces ++ piecesWithin rounds after
    | none =>
      let run := c :: rest.takeWhile (· != '<')
      .text (resolve false run) ::
        piecesWithin rounds (rest.dropWhile (· != '<'))

/-- One kind of line end, and no null characters. -/
def normalize : List Char → List Char
  | [] => []
  | '\r' :: '\n' :: rest => '\n' :: normalize rest
  | c :: rest =>
    (if c == '\r' then '\n' else if c == '\x00' then replacement else c) ::
      normalize rest

/-- The pieces of a text. -/
def pieces (s : String) : List Piece :=
  let cs := normalize s.toList
  piecesWithin cs.length cs

end SheetBinding.Markup
