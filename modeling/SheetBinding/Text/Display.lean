import SheetBinding.Text.Printable

/-!
Strings as messages show them: between quotes, with every character that cannot
be seen written as an escape. Single quotes are used unless the string holds one
and holds no double quote.
-/

namespace SheetBinding.Text

/-- A hexadecimal digit, with small letters. -/
def hexDigit (n : Nat) : Char :=
  if n < 10 then Char.ofNat (48 + n) else Char.ofNat (87 + n)

/-- The last `width` hexadecimal digits of a number. -/
def hexDigits : Nat → Nat → List Char
  | 0, _ => []
  | width + 1, n => hexDigits width (n / 16) ++ [hexDigit (n % 16)]

/-- An escape by code point: two digits where they do, else four, else eight. -/
def codeEscape (c : Char) : List Char :=
  let n := c.toNat
  if n < 0x100 then '\\' :: 'x' :: hexDigits 2 n
  else if n < 0x10000 then '\\' :: 'u' :: hexDigits 4 n
  else '\\' :: 'U' :: hexDigits 8 n

/-- One character between quotes of the kind `q`; `shown` tells which ones stay
as they are. -/
def displayChar (shown : Char → Bool) (q c : Char) : List Char :=
  if c == q || c == '\\' then ['\\', c]
  else if c == '\n' then ['\\', 'n']
  else if c == '\r' then ['\\', 'r']
  else if c == '\t' then ['\\', 't']
  else if shown c then [c]
  else codeEscape c

/-- The quotes that a text is shown in: single ones, unless it holds those and
no double ones. -/
def displayQuote (cs : List Char) : Char :=
  if cs.contains '\'' && !cs.contains '"' then '"' else '\''

/-- A text between quotes, `shown` telling which characters stay as they are. -/
def displayWith (shown : Char → Bool) (cs : List Char) : List Char :=
  let q := displayQuote cs
  q :: cs.flatMap (displayChar shown q) ++ [q]

/-- A text as it is shown: in quotes, with escapes for what cannot be
printed. -/
def display (s : String) : String :=
  String.ofList (displayWith isPrintable s.toList)

/-- A string as a message shows it where only ASCII can be shown. -/
def displayAscii (s : String) : String :=
  String.ofList (displayWith (fun c => isPrintable c && c.toNat < 128) s.toList)

end SheetBinding.Text
