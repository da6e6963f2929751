/-!
Character references in markup. A reference gives the code point of a character
in decimal or in hexadecimal, or names the character; the semicolon after a
number may be missing, and so may the one after the name of a character of the
first 256.
-/

namespace SheetBinding.Markup

/-- The code points of the characters that have a name. -/
def namedCharacters : List (String × Nat) := [
  ("QUOT", 34), ("quot", 34), ("AMP", 38), ("amp", 38), ("apos", 39),
  ("LT", 60), ("lt", 60), ("GT", 62), ("gt", 62), ("nbsp", 160), ("iexcl", 161),
  ("cent", 162), ("pound", 163), ("curren", 164), ("yen", 165), ("brvbar", 166),
  ("sect", 167), ("uml", 168), ("COPY", 169), ("copy", 169), ("ordf", 170),
  ("laquo", 171), ("not", 172), ("shy", 173), ("REG", 174), ("reg", 174),
  ("macr", 175), ("deg", 176), ("plusmn", 177), ("sup2", 178), ("sup3", 179),
  ("acute", 180), ("micro", 181), ("para", 182), ("middot", 183),
  ("cedil", 184), ("sup1", 185), ("ordm", 186), ("raquo", 187), ("frac14", 188),
  ("frac12", 189), ("frac34", 190), ("iquest", 191), ("Agrave", 192),
  ("Aacute", 193), ("Acirc", 194), ("Atilde", 195), ("Auml", 196),
  ("Aring", 197), ("AElig", 198), ("Ccedil", 199), ("Egrave", 200),
  ("Eacute", 201), ("Ecirc", 202), ("Euml", 203), ("Igrave", 204),
  ("Iacute", 205), ("Icirc", 206), ("Iuml", 207), ("ETH", 208), ("Ntilde", 209),
  ("Ograve", 210), ("Oacute", 211), ("Ocirc", 212), ("Otilde", 213),
  ("Ouml", 214), ("times", 215), ("Oslash", 216), ("Ugrave", 217),
  ("Uacute", 218), ("Ucirc", 219), ("Uuml", 220), ("Yacute", 221),
  ("THORN", 222), ("szlig", 223), ("agrave", 224), ("aacute", 225),
  ("acirc", 226), ("atilde", 227), ("auml", 228), ("aring", 229),
  ("aelig", 230), ("ccedil", 231), ("egrave", 232), ("eacute", 233),
  ("ecirc", 234), ("euml", 235), ("igrave", 236), ("iacute", 237),
  ("icirc", 238), ("iuml", 239), ("eth", 240), ("ntilde", 241), ("ograve", 242),
  ("oacute", 243), ("ocirc", 244), ("otilde", 245), ("ouml", 246),
  ("divide", 247), ("oslash", 248), ("ugrave", 249), ("uacute", 250),
  ("ucirc", 251), ("uuml", 252), ("yacute", 253), ("thorn", 254), ("yuml", 255),
  ("OElig", 338), ("oelig", 339), ("Scaron", 352), ("scaron", 353),
  ("Yuml", 376), ("fnof", 402), ("circ", 710), ("tilde", 732), ("Alpha", 913),
  ("Beta", 914), ("Gamma", 915), ("Delta", 916), ("Epsilon", 917),
  ("Zeta", 918), ("Eta", 919), ("Theta", 920), ("Iota", 921), ("Kappa", 922),
  ("Lambda", 923), ("Mu", 924), ("Nu", 925), ("Xi", 926), ("Omicron", 927),
  ("Pi", 928), ("Rho", 929), ("Sigma", 931), ("Tau", 932), ("Upsilon", 933),
  ("Phi", 934), ("Chi", 935), ("Psi", 936), ("Omega", 937), ("alpha", 945),
  ("beta", 946), ("gamma", 947), ("delta", 948), ("epsilon", 949),
  ("zeta", 950), ("eta", 951), ("theta", 952), ("iota", 953), ("kappa", 954),
  ("lambda", 955), ("mu", 956), ("nu", 957), ("xi", 958), ("omicron", 959),
  ("pi", 960), ("rho", 961), ("sigmaf", 962), ("sigma", 963), ("tau", 964),
  ("upsilon", 965), ("phi", 966), ("chi", 967), ("psi", 968), ("omega", 969),
  ("thetasym", 977), ("upsih", 978), ("piv", 982), ("ensp", 8194),
  ("emsp", 8195), ("thinsp", 8201), ("zwnj", 8204), ("zwj", 8205),
  ("lrm", 8206), ("rlm", 8207), ("ndash", 8211), ("mdash", 8212),
  ("lsquo", 8216), ("rsquo", 8217), ("sbquo", 8218), ("ldquo", 8220),
  ("rdquo", 8221), ("bdquo", 8222), ("dagger", 8224), ("Dagger", 8225),
  ("bull", 8226), ("hellip", 8230), ("permil", 8240), ("prime", 8242),
  ("Prime", 8243), ("lsaquo", 8249), ("rsaquo", 8250), ("oline", 8254),
  ("frasl", 8260), ("euro", 8364), ("image", 8465), ("weierp", 8472),
  ("real", 8476), ("trade", 8482), ("alefsym", 8501), ("larr", 8592),
  ("uarr", 8593), ("rarr", 8594), ("darr", 8595), ("harr", 8596),
  ("crarr", 8629), ("lArr", 8656), ("uArr", 8657), ("rArr", 8658),
  ("dArr", 8659), ("hArr", 8660), ("forall", 8704), ("part", 8706),
  ("exist", 8707), ("empty", 8709), ("nabla", 8711), ("isin", 8712),
  ("notin", 8713), ("ni", 8715), ("prod", 8719), ("sum", 8721), ("minus", 8722),
  ("lowast", 8727), ("radic", 8730), ("prop", 8733), ("infin", 8734),
  ("ang", 8736), ("and", 8743), ("or", 8744), ("cap", 8745), ("cup", 8746),
  ("int", 8747), ("there4", 8756), ("sim", 8764), ("cong", 8773),
  ("asymp", 8776), ("ne", 8800), ("equiv", 8801), ("le", 8804), ("ge", 8805),
  ("sub", 8834), ("sup", 8835), ("nsub", 8836), ("sube", 8838), ("supe", 8839),
  ("oplus", 8853), ("otimes", 8855), ("perp", 8869), ("sdot", 8901),
  ("lceil", 8968), ("rceil", 8969), ("lfloor", 8970), ("rfloor", 8971),
  ("lang", 9001), ("rang", 9002), ("loz", 9674), ("spades", 9824),
  ("clubs", 9827), ("hearts", 9829), ("diams", 9830)]

/-- What the code points of the second control block stand for in markup. -/
def controlReplacements : List (Nat × Nat) := [
  (0x80, 0x20AC), (0x82, 0x201A), (0x83, 0x0192), (0x84, 0x201E),
    (0x85, 0x2026), (0x86, 0x2020),
  (0x87, 0x2021), (0x88, 0x02C6), (0x89, 0x2030), (0x8A, 0x0160),
    (0x8B, 0x2039), (0x8C, 0x0152),
  (0x8E, 0x017D), (0x91, 0x2018), (0x92, 0x2019), (0x93, 0x201C),
    (0x94, 0x201D), (0x95, 0x2022),
  (0x96, 0x2013), (0x97, 0x2014), (0x98, 0x02DC), (0x99, 0x2122),
    (0x9A, 0x0161), (0x9B, 0x203A),
  (0x9C, 0x0153), (0x9E, 0x017E), (0x9F, 0x0178)]

/-- What stands for a character that there is not. -/
def replacement : Char := Char.ofNat 0xFFFD

/-- The character of a code point. -/
def characterOf (n : Nat) : Char :=
  if n == 0 then replacement
  else
    match controlReplacements.lookup n with
    | some m => Char.ofNat m
    | none => if n.isValidChar then Char.ofNat n else replacement

/-- The value of a digit in a base up to sixteen. -/
def digitIn? (base : Nat) (c : Char) : Option Nat :=
  let n := c.toNat
  let value :=
    if 48 ≤ n && n ≤ 57 then n - 48
    else if 97 ≤ n && n ≤ 102 then n - 87
    else if 65 ≤ n && n ≤ 70 then n - 55
    else base
  if value < base then some value else none

/-- Drops a semicolon at the front. -/
def dropSemicolon : List Char → List Char
  | ';' :: rest => rest
  | cs => cs

/-- A reference by code point, from after its base mark. -/
def numberReference? (base : Nat) (cs : List Char) :
    Option (Char × List Char) :=
  let ds := cs.takeWhile fun c => (digitIn? base c).isSome
  if ds.isEmpty then none
  else
    let n := ds.foldl (fun acc c => base * acc + (digitIn? base c).getD 0) 0
    some (characterOf n, dropSemicolon (cs.drop ds.length))

/-- Whether the semicolon after a name may be missing. -/
def standsAlone (entry : String × Nat) : Bool :=
  entry.2 < 256 && entry.1 != "apos"

/-- The longest name that stands alone at the front of a text: its length and
its code point. -/
def longestName? (cs : List Char) : Option (Nat × Nat) :=
  namedCharacters.foldl (fun best entry =>
    let name := entry.1.toList
    if standsAlone entry && name.isPrefixOf cs &&
      best.all (·.1 < name.length) then
      some (name.length, entry.2)
    else best) none

/-- Whether a character after a name without semicolon makes it no reference
inside an attribute value. -/
def goesOn (c : Char) : Bool :=
  c == '=' || c.isAlphanum

/-- Reads a character by its name. Without a semicolon the longest name that
fits is taken, but in a value not before more of a word. -/
def nameReference? (inValue : Bool) (cs : List Char) :
    Option (Char × List Char) :=
  let run := cs.takeWhile Char.isAlphanum
  match namedCharacters.lookup (String.ofList run), cs.drop run.length with
  | some n, ';' :: rest => some (Char.ofNat n, rest)
  | _, _ =>
    match longestName? run with
    | none => none
    | some (length, n) =>
      let rest := cs.drop length
      if inValue && rest.head?.any goesOn then none
      else some (Char.ofNat n, rest)

/-- A reference, from after its ampersand. -/
def reference? (inValue : Bool) (cs : List Char) : Option (Char × List Char) :=
  match cs with
  | '#' :: 'x' :: rest => numberReference? 16 rest
  | '#' :: 'X' :: rest => numberReference? 16 rest
  | '#' :: rest => numberReference? 10 rest
  | _ => nameReference? inValue cs

/-- A text with its references resolved, one character or reference a round. -/
def resolveWithin (inValue : Bool) : Nat → List Char → List Char
  | 0, _ => []
  | _, [] => []
  | rounds + 1, c :: rest =>
    if c == '&' then
      match reference? inValue rest with
      | some (d, after) => d :: resolveWithin inValue rounds after
      | none => c :: resolveWithin inValue rounds rest
    else c :: resolveWithin inValue rounds rest

/-- A text, or an attribute value, with its references resolved. -/
def resolve (inValue : Bool) (cs : List Char) : String :=
  String.ofList (resolveWithin inValue cs.length cs)

end SheetBinding.Markup
