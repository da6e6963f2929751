import SheetBinding.Markup.Node
import SheetBinding.Markup.Vocabulary

/-!
Writing documents as markup. Elements that stand on lines of their own get line
breaks around them and inside them, but never next to text, and never inside an
element whose name begins with `p`.
-/

namespace SheetBinding.Markup

/-- A character as it is written in text. -/
def escapeChar (c : Char) : String :=
  if c == '&' then "&amp;"
  else if c == '<' then "&lt;"
  else if c == '>' then "&gt;"
  else c.toString

/-- Text as it is written between tags. -/
def escapeText (s : String) : String :=
  String.join (s.toList.map escapeChar)

/-- Text between quotes: double ones, unless it holds double quotes and no
single ones. -/
def quoted (s : String) : String :=
  let cs := s.toList
  if cs.contains '"' && !cs.contains '\'' then "'" ++ s ++ "'"
  else
    "\"" ++ String.join (cs.map fun c => if c == '"' then "&quot;"
      else c.toString) ++ "\""

/-- The two hexadecimal digits of a byte, with capital letters. -/
def byteDigits (b : UInt8) : String :=
  let digit (n : Nat) : Char := if n < 10 then Char.ofNat (48 + n)
    else Char.ofNat (55 + n)
  String.ofList [digit (b.toNat / 16), digit (b.toNat % 16)]

/-- A character of an address: the visible ones of ASCII stay as they are, and
all others are written byte by byte. -/
def addressChar (c : Char) : String :=
  if 32 < c.toNat && c.toNat < 127 then c.toString
  else String.join (c.toString.toUTF8.toList.map fun b => "%" ++ byteDigits b)

/-- Whether an attribute holds an address. -/
def isAddress (tag name : String) : Bool :=
  ["href", "action", "src"].contains name || (name == "name" && tag == "a")

/-- The value of an attribute without the blanks at its start, as an address. -/
def addressText (value : String) : String :=
  let blank (c : Char) : Bool := c == ' ' || c == '\t' || c == '\n' || c == '\r'
  String.join ((value.toList.dropWhile blank).map addressChar)

/-- An attribute of an element; one that counts by being there is written
without its value. -/
def printAttribute (tag : String) (a : String × String) : String :=
  if booleanAttributes.contains a.1 then " " ++ a.1
  else
    let value := escapeText a.2
    " " ++ a.1 ++ "=" ++ quoted (if isAddress tag a.1 then addressText value
      else value)

/-- The start tag of an element. -/
def printOpening (tag : String) (as : Attributes) : String :=
  "<" ++ tag ++ String.join (as.map (printAttribute tag)) ++ ">"

/-- Text inside an element. -/
def printText (parent : String) (s : String) : String :=
  if rawElements.contains parent then s else escapeText s

/-- Whether the elements of a tag are printed on lines of their own. -/
def isBlock (tag : String) : Bool :=
  blockElements.contains tag

/-- Whether line breaks may go inside an element. -/
def breaksInside (tag : String) : Bool :=
  !tag.startsWith "p"

/-- Whether an element holds more than one run of text or node. -/
def holdsSeveral (text : String) (children : List Node) : Bool :=
  match children with
  | [] => false
  | [n] => text != "" || n.tail != ""
  | _ => true

/-- A line break, or nothing. -/
def breakIf (b : Bool) : String :=
  if b then "\n" else ""

mutual

/-- A node inside an element of the given tag, `followed` telling whether a node
follows it. -/
def printNode (parent : String) (followed : Bool) : Node → String
  | .comment _ content tail =>
    "<!--" ++ content ++ "-->" ++ printText parent tail
  | .element _ tag as text children tail =>
    let several := isBlock tag && breaksInside tag && holdsSeveral text children
    let inside :=
      if voidElements.contains tag then ""
      else
        breakIf (several && text == "") ++
          printText tag text ++ printNodes tag children ++ breakIf (several &&
          children.getLast?.any (·.tail == "")) ++ "</" ++ tag ++ ">"
    printOpening tag as ++ inside ++
      breakIf (isBlock tag && tail == "" && followed && breaksInside parent) ++
      printText parent tail

/-- The nodes inside an element of a tag, one behind the other. -/
def printNodes (parent : String) : List Node → String
  | [] => ""
  | n :: rest => printNode parent (!rest.isEmpty) n ++ printNodes parent rest

end

/-- A whole document, with its declaration. -/
def printDocument (top : Node) : String :=
  "<!DOCTYPE html>\n" ++ printNode "" false (top.withTail "") ++ "\n"

end SheetBinding.Markup
