import SheetBinding.Text.Lowercase

/-!
Character encodings. Each encoding writes a character as bytes, if it can, and
reads one character from the front of some bytes, if they begin with one; a text
is encoded and decoded character by character.
-/

namespace SheetBinding.Text

/-- The encodings of sheets and documents. -/
inductive Encoding where
  | utf8
  /-- With a byte order mark at the start. -/
  | utf8Marked
  /-- In 16-bit units, the less significant byte first. -/
  | utf16
  | latin1
  | ascii
  deriving DecidableEq, Repr

/-- A byte. -/
abbrev Byte := UInt8

namespace Encoding

/-- The names of the encodings, in lower case and with hyphens for all other
punctuation. -/
def names : List (String × Encoding) := [
  ("utf-8", utf8), ("utf8", utf8), ("u8", utf8), ("utf", utf8),
    ("cp65001", utf8),
  ("utf-8-sig", utf8Marked),
  ("utf-16-le", utf16), ("utf-16le", utf16), ("unicodelittleunmarked", utf16),
  ("latin-1", latin1), ("latin1", latin1), ("latin", latin1), ("l1", latin1),
  ("iso-8859-1", latin1), ("iso8859-1", latin1), ("8859", latin1),
    ("cp819", latin1),
  ("ibm819", latin1), ("csisolatin1", latin1), ("iso-ir-100", latin1),
  ("ascii", ascii), ("us-ascii", ascii), ("us", ascii), ("646", ascii),
    ("cp367", ascii),
  ("ibm367", ascii), ("csascii", ascii), ("iso-ir-6", ascii),
    ("iso646-us", ascii)]

/-- A name with hyphens for all punctuation but points, `pending` telling
whether some was met since the last other character. -/
def hyphenate (pending : Bool) : List Char → List Char
  | [] => []
  | c :: rest =>
    if c.isAlphanum || c == '.' then
      if pending then '-' :: c :: hyphenate false rest
      else c :: hyphenate false rest
    else hyphenate true rest

/-- The encoding of a name, case and punctuation left aside. -/
def ofName? (name : String) : Option Encoding :=
  let cs := (asciiLowercase name).toList
  let punctuation (c : Char) : Bool := !(c.isAlphanum || c == '.')
  names.lookup (String.ofList (hyphenate false (cs.dropWhile punctuation)))

/-- The byte of a number below 256. -/
def byte (n : Nat) : Byte :=
  UInt8.ofNat n

/-- The bytes of a character in UTF-8. -/
def utf8Bytes (c : Char) : List Byte :=
  let n := c.toNat
  if n < 0x80 then [byte n]
  else if n < 0x800 then [byte (0xC0 + n / 64), byte (0x80 + n % 64)]
  else if n < 0x10000 then
    [byte (0xE0 + n / 4096), byte (0x80 + n / 64 % 64), byte (0x80 + n % 64)]
  else
    [byte (0xF0 + n / 262144), byte (0x80 + n / 4096 % 64),
      byte (0x80 + n / 64 % 64), byte (0x80 + n % 64)]

/-- The two bytes of a 16-bit unit. -/
def unitBytes (n : Nat) : List Byte :=
  [byte (n % 256), byte (n / 256)]

/-- The bytes of a character in 16-bit units; one beyond the first 65536 takes a
pair of units. -/
def utf16Bytes (c : Char) : List Byte :=
  let n := c.toNat
  if n < 0x10000 then unitBytes n
  else unitBytes (0xD800 + (n - 0x10000) / 1024) ++
    unitBytes (0xDC00 + (n - 0x10000) % 1024)

/-- The bytes of a character, if it can be encoded. -/
def encodeChar? (e : Encoding) (c : Char) : Option (List Byte) :=
  match e with
  | utf8 | utf8Marked => some (utf8Bytes c)
  | utf16 => some (utf16Bytes c)
  | latin1 => if c.toNat < 256 then some [byte c.toNat] else none
  | ascii => if c.toNat < 128 then some [byte c.toNat] else none

/-- The character of a code point that is at least `least`. -/
def charFrom? (least n : Nat) : Option Char :=
  if least ≤ n && n.isValidChar then some (Char.ofNat n) else none

/-- The six bits of a byte that goes on a character in UTF-8. -/
def continuation? (b : Byte) : Option Nat :=
  if 0x80 ≤ b.toNat && b.toNat < 0xC0 then some (b.toNat - 0x80) else none

/-- Reads a character in UTF-8; the shortest form is the only one. -/
def utf8Char? : List Byte → Option (Char × List Byte)
  | [] => none
  | a :: rest =>
    let n := a.toNat
    if n < 0x80 then some (Char.ofNat n, rest)
    else if 0xC0 ≤ n && n < 0xE0 then
      match rest with
      | b :: rest => do
        let x ← continuation? b
        let c ← charFrom? 0x80 ((n - 0xC0) * 64 + x)
        return (c, rest)
      | _ => none
    else if 0xE0 ≤ n && n < 0xF0 then
      match rest with
      | b :: d :: rest => do
        let x ← continuation? b
        let y ← continuation? d
        let c ← charFrom? 0x800 (((n - 0xE0) * 64 + x) * 64 + y)
        return (c, rest)
      | _ => none
    else if 0xF0 ≤ n && n < 0xF8 then
      match rest with
      | b :: d :: e :: rest => do
        let x ← continuation? b
        let y ← continuation? d
        let z ← continuation? e
        let c ← charFrom? 0x10000 ((((n - 0xF0) * 64 + x) * 64 + y) * 64 + z)
        return (c, rest)
      | _ => none
    else none

/-- Reads a 16-bit unit. -/
def unit? : List Byte → Option (Nat × List Byte)
  | a :: b :: rest => some (a.toNat + 256 * b.toNat, rest)
  | _ => none

/-- Reads a character in 16-bit units. -/
def utf16Char? (bytes : List Byte) : Option (Char × List Byte) :=
  match unit? bytes with
  | none => none
  | some (high, rest) =>
    if 0xD800 ≤ high && high < 0xDC00 then
      match unit? rest with
      | none => none
      | some (low, rest) =>
        if 0xDC00 ≤ low && low < 0xE000 then
          some (Char.ofNat (0x10000 + (high - 0xD800) * 1024 +
            (low - 0xDC00)), rest)
        else none
    else (charFrom? 0 high).map fun c => (c, rest)

/-- Reads a character off the front of bytes. -/
def decodeChar? (e : Encoding) (bytes : List Byte) :
    Option (Char × List Byte) :=
  match e with
  | utf8 | utf8Marked => utf8Char? bytes
  | utf16 => utf16Char? bytes
  | latin1 =>
    match bytes with
    | b :: rest => some (Char.ofNat b.toNat, rest)
    | [] => none
  | ascii =>
    match bytes with
    | b :: rest =>
      if b.toNat < 128 then some (Char.ofNat b.toNat, rest) else none
    | [] => none

/-- The bytes of characters, one behind the other. -/
def encodeChars? (e : Encoding) : List Char → Option (List Byte)
  | [] => some []
  | c :: rest => do return (← e.encodeChar? c) ++ (← e.encodeChars? rest)

/-- The characters that bytes stand for, at most as many as there are rounds. -/
def decodeWithin (e : Encoding) : Nat → List Byte → Option (List Char)
  | _, [] => some []
  | 0, _ :: _ => none
  | rounds + 1, b :: rest =>
    match e.decodeChar? (b :: rest) with
    | none => none
    | some (c, left) => (e.decodeWithin rounds left).map (c :: ·)

/-- The byte order mark. -/
def mark : List Byte := [0xEF, 0xBB, 0xBF]

/-- The bytes of a text, if all of it can be encoded. -/
def encode? (e : Encoding) (s : String) : Option (List Byte) :=
  (e.encodeChars? s.toList).map fun bytes => if e == utf8Marked then
    mark ++ bytes else bytes

/-- Drops the byte order mark where the encoding has one. -/
def withoutMark (e : Encoding) (bytes : List Byte) : List Byte :=
  if e == utf8Marked && mark.isPrefixOf bytes then bytes.drop mark.length
  else bytes

/-- The text that bytes stand for. -/
def decode? (e : Encoding) (bytes : List Byte) : Option String :=
  let bytes := e.withoutMark bytes
  (e.decodeWithin bytes.length bytes).map String.ofList

end Encoding

/-- One kind of line end: a carriage return, and the line feed after it if there
is one, become a line feed. -/
def unifyLineEnds : List Char → List Char
  | [] => []
  | '\r' :: '\n' :: rest => '\n' :: unifyLineEnds rest
  | c :: rest => (if c == '\r' then '\n' else c) :: unifyLineEnds rest

end SheetBinding.Text
