import SheetBinding.Text.Blank

/-!
Tokens of selectors. Identifiers may hold escapes and any character outside
ASCII; comments count for nothing, and one that is never closed runs to the end
of the text. A text that holds an unclosed string has no tokens.
-/

namespace SheetBinding.Selector

/-- A piece of selector text, with escapes already undone. -/
inductive Token where
  /-- A run of blanks. -/
  | blank
  | ident (name : String)
  /-- A name after a number sign. -/
  | hash (name : String)
  | string (value : String)
  /-- A number, as it is written. -/
  | number (text : String)
  | delim (c : Char)
  deriving DecidableEq, Repr

/-- The blanks of selectors. -/
def isSpace (c : Char) : Bool :=
  Text.isGap c

/-- The value of a hexadecimal digit. -/
def hexValue? (c : Char) : Option Nat :=
  let n := c.toNat
  if 48 ≤ n && n ≤ 57 then some (n - 48)
  else if 97 ≤ n && n ≤ 102 then some (n - 87)
  else if 65 ≤ n && n ≤ 70 then some (n - 55)
  else none

/-- Whether a character is a hexadecimal digit. -/
def isHex (c : Char) : Bool :=
  (hexValue? c).isSome

/-- The characters that a name begins with. -/
def startsName (c : Char) : Bool :=
  c == '_' || c.isAlpha || 128 ≤ c.toNat

/-- The characters that a name goes on with. -/
def continuesName (c : Char) : Bool :=
  startsName c || c.isDigit || c == '-'

/-- A line break inside a string ends it, unless it is escaped. -/
def isBreak (c : Char) : Bool :=
  c == '\n' || c == '\r' || c == '\x0c'

/-- How many characters an escape takes after its backslash: up to six
hexadecimal digits and one blank after them, or a single other character.
Nothing if a line break or the end follows. -/
def escapeLength? (cs : List Char) : Option Nat :=
  match cs with
  | [] => none
  | c :: _ =>
    if isHex c then
      let digits := ((cs.take 6).takeWhile isHex).length
      match cs.drop digits with
      | '\r' :: '\n' :: _ => some (digits + 2)
      | b :: _ => some (if isSpace b then digits + 1 else digits)
      | [] => some digits
    else if isBreak c then none
    else some 1

/-- The length of the longest run of name characters and escapes. -/
def nameLength : Nat → List Char → Nat
  | 0, _ => 0
  | _, [] => 0
  | rounds + 1, c :: rest =>
    if c == '\\' then
      match escapeLength? rest with
      | some n => n + 1 + nameLength rounds (rest.drop n)
      | none => 0
    else if continuesName c then 1 + nameLength rounds rest
    else 0

/-- The length of the identifier at the start of a text, zero if there is none:
an optional hyphen, then a character that begins a name, then name
characters. -/
def identLength (cs : List Char) : Nat :=
  let (hyphen, rest) :=
    match cs with
    | '-' :: rest => (1, rest)
    | _ => (0, cs)
  match rest with
  | c :: _ => if c == '\\' || startsName c then
      let n := nameLength rest.length rest
      if n == 0 then 0 else hyphen + n
    else 0
  | [] => 0

/-- The length of the number at the start of a text, zero if there is none. -/
def numberLength (cs : List Char) : Nat :=
  let (sign, rest) :=
    match cs with
    | '+' :: rest => (1, rest)
    | '-' :: rest => (1, rest)
    | _ => (0, cs)
  let whole := (rest.takeWhile Char.isDigit).length
  match rest.drop whole with
  | '.' :: more =>
    let fraction := (more.takeWhile Char.isDigit).length
    if fraction == 0 then (if whole == 0 then 0 else sign + whole)
    else sign + whole + 1 + fraction
  | _ => if whole == 0 then 0 else sign + whole

/-- The length of the inside of a string that closes with `q`, zero rounds being
left meaning that it does not close. -/
def stringLength? (q : Char) : Nat → List Char → Option Nat
  | 0, _ => none
  | _, [] => none
  | rounds + 1, c :: rest =>
    if c == q then some 0
    else if c == '\\' then
      let taken :=
        match rest with
        | '\r' :: '\n' :: _ => some 2
        | b :: _ => if isBreak b then some 1 else escapeLength? rest
        | [] => none
      match taken with
      | some n => (stringLength? q rounds (rest.drop n)).map (n + 1 + ·)
      | none => none
    else if isBreak c then none
    else (stringLength? q rounds rest).map (1 + ·)

/-- The character of a code point. A number beyond all code points gives the
replacement character. A surrogate is no character, and no document can hold
one: a character that no document can hold either stands for it. -/
def charOfCode (n : Nat) : Char :=
  if n.isValidChar then Char.ofNat n
  else if n < 0x10000 then Char.ofNat 0xFFFF
  else Char.ofNat 0xFFFD

/-- Undoes the escapes that name a code point. -/
def undoCodes : Nat → List Char → List Char
  | 0, _ => []
  | _, [] => []
  | rounds + 1, c :: rest =>
    if c == '\\' && rest.head?.any isHex then
      let digits := (rest.take 6).takeWhile isHex
      let code := digits.foldl (fun acc d => 16 * acc + (hexValue? d).getD 0) 0
      charOfCode code :: undoCodes rounds
        (rest.drop ((escapeLength? rest).getD 0))
    else c :: undoCodes rounds rest

/-- Undoes the escapes that stand for the character itself. -/
def undoPlain : List Char → List Char
  | [] => []
  | '\\' :: c :: rest =>
    if c == '\n' then '\\' :: c :: undoPlain rest else c :: undoPlain rest
  | c :: rest => c :: undoPlain rest

/-- Joins lines that an escaped line break divides. -/
def joinLines : List Char → List Char
  | [] => []
  | '\\' :: '\r' :: '\n' :: rest => joinLines rest
  | '\\' :: c :: rest =>
    if isBreak c then joinLines rest else '\\' :: joinLines (c :: rest)
  | c :: rest => c :: joinLines rest
termination_by cs => cs.length

/-- Undoes all escapes: first those that name a code point, then the plain
ones. -/
def undoEscapes (cs : List Char) : String :=
  String.ofList (undoPlain (undoCodes cs.length cs))

/-- What follows the end of a comment. -/
def afterComment : List Char → List Char
  | [] => []
  | '*' :: '/' :: rest => rest
  | _ :: rest => afterComment rest

/-- The tokens of a text, at most as many as there are rounds. -/
def tokensWithin : Nat → List Char → Option (List Token)
  | 0, _ => some []
  | _, [] => some []
  | rounds + 1, c :: rest =>
    let cs := c :: rest
    if isSpace c then
      (tokensWithin rounds (cs.dropWhile isSpace)).map (.blank :: ·)
    else
      let ident := identLength cs
      if ident != 0 then
        (tokensWithin rounds (cs.drop ident)).map
          (.ident (undoEscapes (cs.take ident)) :: ·)
      else
        let hash := if c == '#' then nameLength rest.length rest else 0
        if hash != 0 then
          (tokensWithin rounds (rest.drop hash)).map
            (.hash (undoEscapes (rest.take hash)) :: ·)
        else if c == '"' || c == '\'' then
          match stringLength? c cs.length rest with
          | none => none
          | some n =>
            (tokensWithin rounds (rest.drop (n + 1))).map
              (.string (undoEscapes (joinLines (rest.take n))) :: ·)
        else
          let number := numberLength cs
          if number != 0 then
            (tokensWithin rounds (cs.drop number)).map
              (.number (String.ofList (cs.take number)) :: ·)
          else if c == '/' && rest.head? == some '*' then
            tokensWithin rounds (afterComment (rest.drop 1))
          else (tokensWithin rounds rest).map (.delim c :: ·)

/-- The tokens of a text; nothing if a string in it is not closed. -/
def tokens? (cs : List Char) : Option (List Token) :=
  tokensWithin cs.length cs

end SheetBinding.Selector
