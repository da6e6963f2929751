/-!
Laying out what a format writes: the sign, the fill around it, and the
separators between groups of digits.
-/

namespace SheetBinding.Format

/-- Where the fill goes. -/
inductive Align where
  /-- After the text. -/
  | left
  /-- Before the text. -/
  | right
  /-- On both sides, one more after the text if it is odd. -/
  | center
  /-- Between the sign and the digits. -/
  | inside
  deriving DecidableEq, Repr

/-- The alignment that a character stands for. -/
def Align.ofChar? (c : Char) : Option Align :=
  if c == '<' then some .left
  else if c == '>' then some .right
  else if c == '^' then some .center
  else if c == '=' then some .inside
  else none

/-- Reads an alignment with the fill character before it, or without one. -/
def takeAlign (cs : List Char) : Option Char × Option Align × List Char :=
  match cs with
  | [] => (none, none, [])
  | [c] =>
    match Align.ofChar? c with
    | some align => (none, some align, [])
    | none => (none, none, [c])
  | c :: d :: rest =>
    match Align.ofChar? d with
    | some align => (some c, some align, rest)
    | none =>
      match Align.ofChar? c with
      | some align => (none, some align, d :: rest)
      | none => (none, none, cs)

/-- Whether a character asks for a sign: a minus for negative numbers only, or a
plus or a blank for the others too. -/
def isSign (c : Char) : Bool :=
  c == '+' || c == '-' || c == ' '

/-- Takes a sign off the front. -/
def takeSign (cs : List Char) : Option Char × List Char :=
  match cs with
  | [] => (none, [])
  | c :: rest => if isSign c then (some c, rest) else (none, cs)

/-- The sign that is written before a number, if the one asked for is such. -/
def signText (asked : Option Char) (negative : Bool) : List Char :=
  if negative then ['-']
  else
    match asked with
    | some c => if c == '-' then [] else [c]
    | none => []

/-- A head and a body with fill up to a width; nothing is cut off. -/
def pad (fill : Char) (align : Align) (width : Nat) (head body : List Char) :
    List Char :=
  let room := width - (head.length + body.length)
  match align with
  | .left => head ++ body ++ List.replicate room fill
  | .right => List.replicate room fill ++ head ++ body
  | .center =>
    List.replicate (room / 2) fill ++ head ++ body ++
      List.replicate (room - room / 2) fill
  | .inside => head ++ List.replicate room fill ++ body

/-- Puts a separator between groups of digits, counted from the last digit. The
digits come last first and so does the result; zeros go on until `room`
characters are written. A separator is never written first, so a group of at
least one zero follows it. -/
def groupReversed (size : Nat) (separator : Char) :
    Nat → List Char → Int → List Char
  | 0, ds, _ => ds
  | rounds + 1, ds, room =>
    let wanted := min size (max (max ds.length room.toNat) 1)
    let taken := ds.take wanted
    let group := taken ++ List.replicate (wanted - taken.length) '0'
    let rest := ds.drop wanted
    let left := room - wanted
    if rest.isEmpty && left ≤ 0 then group
    else group ++ separator :: groupReversed size separator rounds rest
      (left - 1)

/-- Digits in groups, with zeros before them up to a width. -/
def group (size : Nat) (separator : Char) (ds : List Char) (room : Int) :
    List Char :=
  (groupReversed size separator (ds.length + room.toNat + 1) ds.reverse
    room).reverse

/-- Digits with zeros before them up to a width, and at least one digit. -/
def zeroFilled (ds : List Char) (room : Int) : List Char :=
  List.replicate (max room.toNat 1 - ds.length) '0' ++ ds

end SheetBinding.Format
