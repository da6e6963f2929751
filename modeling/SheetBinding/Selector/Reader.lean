import SheetBinding.Selector.Names
import SheetBinding.Selector.Series

/-!
Reading selectors from tokens. Each reader takes tokens from the front and gives
what they spell together with the tokens that are left; it gives nothing where
the tokens spell no selector. A compound takes at least one token, and whatever
nests or repeats takes tokens of its own, so the number of tokens bounds the
rounds that the mutually dependent readers need.
-/

namespace SheetBinding.Selector

/-- The tokens after the blanks at the front. -/
def skipBlanks (ts : List Token) : List Token :=
  ts.dropWhile (· == .blank)

/-- Where a compound stands. -/
structure Standing where
  /-- It is the first of a chain outside all parentheses. -/
  leading : Bool
  /-- It stands between the parentheses of a pseudo-class. -/
  nested : Bool
  /-- A pseudo-class around it lets no negation in. -/
  negated : Bool
  /-- Its name is compared as a whole, prefix included. -/
  whole : Bool

/-- The first compound of a chain outside all parentheses. -/
def Standing.first : Standing :=
  ⟨true, false, false, false⟩

/-- The argument of a negation, or of a pseudo-class that lists alternatives. -/
def Standing.tested : Standing :=
  ⟨false, true, true, true⟩

/-- The argument of a pseudo-class that looks for related elements. -/
def Standing.related (s : Standing) : Standing :=
  { s with leading := false, nested := true, whole := false }

/-- The compound after a combinator. -/
def Standing.joined (s : Standing) (c : Combinator) : Standing :=
  { s with leading := false, whole := s.whole || c == .adjacent }

/-- Whether a compound ends before a token. -/
def endsCompound (s : Standing) : Token → Bool
  | .blank => true
  | .delim c =>
    c == ',' || c == '+' || c == '>' || c == '~' || (s.nested && c == ')')
  | _ => false

/-- Reads the name of an element, with its prefix, if there is one. -/
def readElement (s : Standing) (ts : List Token) :
    Option (Option ElementTest × List Token) :=
  let start : Option (Option String × List Token) :=
    match ts with
    | .ident name :: rest => some (some name, rest)
    | .delim '*' :: rest => some (none, rest)
    | _ => none
  match start with
  | none => some (none, ts)
  | some (space, .delim '|' :: .ident name :: rest) =>
    some (some (.ofName s.whole space (some name)), rest)
  | some (space, .delim '|' :: .delim '*' :: rest) =>
    some (some (.ofName s.whole space none), rest)
  | some (_, .delim '|' :: _) => none
  | some (name, rest) => some (some (.ofName s.whole none name), rest)

/-- Reads how an attribute is compared, up to the value. -/
def readRelation : List Token → Option (AttributeRelation × List Token)
  | .delim '=' :: rest => some (.equals, rest)
  | .delim '!' :: .delim '=' :: rest => some (.differs, rest)
  | .delim '^' :: .delim '=' :: rest => some (.startsWith, rest)
  | .delim '$' :: .delim '=' :: rest => some (.endsWith, rest)
  | .delim '*' :: .delim '=' :: rest => some (.contains, rest)
  | .delim '~' :: .delim '=' :: rest => some (.hasWord, rest)
  | .delim '|' :: .delim '=' :: rest => some (.dashed, rest)
  | _ => none

/-- Reads the value that an attribute is compared with. -/
def readValue : List Token → Option (String × List Token)
  | .ident value :: rest => some (value, rest)
  | .string value :: rest => some (value, rest)
  | _ => none

/-- Reads the closing bracket of an attribute test, and the letter that may
stand before it: `i` for a comparison without regard to case, `s` for one with
it. -/
def readFlag : List Token → Option (Bool × List Token)
  | .delim ']' :: rest => some (false, rest)
  | .ident flag :: rest =>
    match Text.asciiLowercase flag, skipBlanks rest with
    | "i", .delim ']' :: after => some (true, after)
    | "s", .delim ']' :: after => some (false, after)
    | _, _ => none
  | _ => none

/-- Reads the name of an attribute, with its prefix. -/
def readAttributeName :
    List Token → Option ((Option String × String) × List Token)
  | .ident name :: .delim '|' :: .delim '=' :: rest =>
    some (attributeName none name, .delim '|' :: .delim '=' :: rest)
  | .ident space :: .delim '|' :: .ident name :: rest =>
    some (attributeName (some space) name, rest)
  | .ident _ :: .delim '|' :: _ => none
  | .ident name :: rest => some (attributeName none name, rest)
  | .delim '*' :: .delim '|' :: .ident name :: rest =>
    some (attributeName none name, rest)
  | _ => none

/-- Reads an attribute test from after its opening bracket. -/
def readAttribute (ts : List Token) : Option (AttributeTest × List Token) := do
  let ((space, name), ts) ← readAttributeName (skipBlanks ts)
  match skipBlanks ts with
  | .delim ']' :: rest => return (⟨space, name, .present, "", false⟩, rest)
  | ts =>
    let (relation, ts) ← readRelation ts
    let (value, ts) ← readValue (skipBlanks ts)
    let (ignoreCase, ts) ← readFlag (skipBlanks ts)
    return (⟨space, name, relation, value, ignoreCase⟩, ts)

/-- Reads plain arguments up to the closing parenthesis, blanks left out. -/
def readArguments : List Token → Option (List Token × List Token)
  | [] => none
  | .blank :: rest => readArguments rest
  | .delim c :: rest =>
    if c == ')' then some ([], rest)
    else if c == '+' || c == '-' then
      (readArguments rest).map fun (arguments, left) =>
        (.delim c :: arguments, left)
    else none
  | .hash _ :: _ => none
  | t :: rest =>
    (readArguments rest).map fun (arguments, left) => (t :: arguments, left)

/-- The name of a pseudo-class without regard to case, an underscore being the
same as a hyphen. -/
def pseudoName (name : String) : String :=
  String.ofList ((Text.asciiLowercase name).toList.map fun c => if c ==
    '_' then '-' else c)

/-- The pseudo-class that counts siblings of the same type, if such siblings can
be counted. -/
def countedType (element : ElementTest) (c : PseudoClass) :
    Option PseudoClass :=
  if element.countsTypes then some c else none

/-- The pseudo-class of a name. Only the first compound of a chain can ask for
the scope. -/
def pseudoClass? (s : Standing) (element : ElementTest) (name : String) :
    Option PseudoClass :=
  match pseudoName name with
  | "root" => some .root
  | "scope" => if s.leading then some .scope else none
  | "first-child" => some .firstChild
  | "last-child" => some .lastChild
  | "only-child" => some .onlyChild
  | "first-of-type" => countedType element .firstOfType
  | "last-of-type" => countedType element .lastOfType
  | "only-of-type" => countedType element .onlyOfType
  | "empty" => some .empty
  | "checked" => some .checked
  | "disabled" => some .disabled
  | "enabled" => some .enabled
  | "link" => some .link
  | "visited" | "hover" | "active" | "focus" | "target" => some .interactive
  | _ => none

/-- The condition on a position, if arguments spell a series of them. -/
def nthCondition? (counting : Counting) (element : ElementTest)
    (arguments : List Token) : Option Condition :=
  if counting.ofType && !element.countsTypes then none
  else (seriesOf? arguments).map fun (step, start) => .nth counting step start

/-- The single word or string among the arguments. -/
def wordOf? : List Token → Option String
  | [.ident word] => some word
  | [.string text] => some text
  | _ => none

/-- The condition that a pseudo-class with plain arguments asks for. -/
def functionCondition? (element : ElementTest) (name : String)
    (arguments : List Token) : Option Condition :=
  match pseudoName name with
  | "nth-child" => nthCondition? ⟨false, false⟩ element arguments
  | "nth-last-child" => nthCondition? ⟨false, true⟩ element arguments
  | "nth-of-type" => nthCondition? ⟨true, false⟩ element arguments
  | "nth-last-of-type" => nthCondition? ⟨true, true⟩ element arguments
  | "contains" => (wordOf? arguments).map .containsText
  | "lang" => (wordOf? arguments).map .language
  | _ => none

/-- Reads a combinator. Where none is written, descendants are meant. -/
def readCombinator : List Token → Combinator × List Token
  | .delim '>' :: rest => (.child, rest)
  | .delim '+' :: rest => (.adjacent, rest)
  | .delim '~' :: rest => (.sibling, rest)
  | ts => (.descendant, ts)

/-- Whether a chain ends before some tokens, blanks at their front being
skipped. -/
def endsChain (s : Standing) : List Token → Bool
  | [] => true
  | t :: _ => t == .delim ',' || (s.nested && t == .delim ')')

mutual

/-- Reads a compound, and blanks before it. -/
def readCompound : Nat → Standing → List Token → Option (Compound × List Token)
  | 0, _, _ => none
  | rounds + 1, s, ts =>
    match readElement s (skipBlanks ts) with
    | none => none
    | some (some element, rest) => readConditions rounds s element [] rest
    | some (none, rest) =>
      match rest with
      | [] => none
      | t :: _ =>
        if endsCompound s t then none else readConditions rounds s .any [] rest

/-- Reads the rest of a compound, `conditions` being those read so far. -/
def readConditions :
    Nat → Standing → ElementTest → List Condition → List Token →
    Option (Compound × List Token)
  | 0, _, _, _, _ => none
  | _, _, element, conditions, [] => some (.mk element conditions, [])
  | rounds + 1, s, element, conditions, t :: ts =>
    if endsCompound s t then some (.mk element conditions, t :: ts)
    else
      match t, ts with
      | .hash name, rest =>
        readConditions rounds s element (conditions ++ [.id name]) rest
      | .delim '.', .ident name :: rest =>
        readConditions rounds s element (conditions ++ [.className name]) rest
      | .delim '|', .ident name :: rest =>
        readConditions rounds s (.ofName s.whole none (some name)) [] rest
      | .delim '[', rest =>
        match readAttribute rest with
        | none => none
        | some (test, rest) =>
          readConditions rounds s element (conditions ++ [.attribute test]) rest
      | .delim ':', .ident name :: rest =>
        match readPseudo rounds s element name rest with
        | none => none
        | some (condition, rest) =>
          readConditions rounds s element (conditions ++ [condition]) rest
      | _, _ => none

/-- Reads a pseudo-class from after its name. -/
def readPseudo : Nat → Standing → ElementTest → String → List Token →
    Option (Condition × List Token)
  | 0, _, _, _, _ => none
  | rounds + 1, s, element, name, ts =>
    match ts with
    | .delim '(' :: rest =>
      match Text.asciiLowercase name with
      | "not" =>
        if s.negated then none
        else
          match readComplex rounds .tested rest with
          | some (chain, .delim ')' :: rest) => some (.not chain, rest)
          | _ => none
      | "is" | "where" | "matches" =>
        (readAlternatives rounds rest).map fun (compounds, rest) =>
          (.anyOf compounds, rest)
      | "has" =>
        (readRelated rounds s rest).map fun (related, rest) =>
          (.has related, rest)
      | _ =>
        match readArguments rest with
        | none => none
        | some (arguments, rest) =>
          (functionCondition? element name arguments).map fun condition =>
            (condition, rest)
    | _ => (pseudoClass? s element name).map fun c => (.pseudo c, ts)

/-- Reads a comma-separated list of compounds up to the closing parenthesis. -/
def readAlternatives : Nat → List Token → Option (List Compound × List Token)
  | 0, _ => none
  | rounds + 1, ts =>
    match readCompound rounds .tested ts with
    | none => none
    | some (compound, rest) =>
      match skipBlanks rest with
      | .delim ')' :: rest => some ([compound], rest)
      | .delim ',' :: rest =>
        (readAlternatives rounds rest).map fun (compounds, rest) =>
          (compound :: compounds, rest)
      | _ => none

/-- Reads a comma-separated list of related selectors up to the closing
parenthesis. -/
def readRelated :
    Nat → Standing → List Token → Option (List Relative × List Token)
  | 0, _, _ => none
  | rounds + 1, s, ts =>
    let (combinator, rest) := readCombinator (skipBlanks ts)
    match readComplex rounds s.related rest with
    | none => none
    | some (chain, rest) =>
      match rest with
      | .delim ')' :: rest => some ([.mk combinator chain], rest)
      | .delim ',' :: rest =>
        (readRelated rounds s rest).map fun (related, rest) =>
          (.mk combinator chain :: related, rest)
      | _ => none

/-- Reads a chain of compounds, and the blanks after it. -/
def readComplex : Nat → Standing → List Token → Option (Complex × List Token)
  | 0, _, _ => none
  | rounds + 1, s, ts =>
    match readCompound rounds s ts with
    | none => none
    | some (compound, rest) =>
      readChain rounds s (.single compound) (skipBlanks rest)

/-- Reads the rest of a chain, `left` being what was read so far. -/
def readChain :
    Nat → Standing → Complex → List Token → Option (Complex × List Token)
  | 0, _, _, _ => none
  | rounds + 1, s, left, ts =>
    if endsChain s ts then some (left, ts)
    else
      let (combinator, rest) := readCombinator ts
      match readCompound rounds (s.joined combinator) rest with
      | none => none
      | some (compound, rest) =>
        readChain rounds s (.join left combinator compound) (skipBlanks rest)

end

/-! ## A step of each reader -/

section Steps

variable {r : Nat} {s : Standing} {e : ElementTest} {x : Compound}
  {ts rest left : List Token}

theorem readCompound_named
    (h : readElement s (skipBlanks ts) = some (some e, left)) (r : Nat) :
    readCompound (r + 1) s ts = readConditions r s e [] left := by
  rw [readCompound.eq_def]
  simp only [h]

theorem readConditions_attribute {conditions : List Condition}
    {test : AttributeTest} (h : readAttribute ts = some (test, rest))
    (r : Nat) :
    readConditions (r + 1) s e conditions (.delim '[' :: ts) =
      readConditions r s e (conditions ++ [.attribute test]) rest := by
  rw [readConditions.eq_def]
  dsimp only
  rw [if_neg (by simp [endsCompound])]
  simp only [h]

theorem readPseudo_has {name : String} {related : List Relative}
    (hname : Text.asciiLowercase name = "has") (h : readRelated r s ts =
      some (related, left)) :
    readPseudo (r + 1) s e name (.delim '(' :: ts) =
      some (.has related, left) := by
  rw [readPseudo.eq_def]
  simp only [hname, h, Option.map_some]

theorem readAlternatives_last (h : readCompound r .tested ts = some (x, rest))
    (hclose : skipBlanks rest = .delim ')' :: left) :
    readAlternatives (r + 1) ts = some ([x], left) := by
  rw [readAlternatives.eq_def]
  simp only [h, hclose]

theorem readRelated_last {c : Combinator} {chain : Complex}
    (hcombinator : readCombinator (skipBlanks ts) = (c, rest))
    (h : readComplex r s.related rest = some (chain, .delim ')' :: left)) :
    readRelated (r + 1) s ts = some ([.mk c chain], left) := by
  rw [readRelated.eq_def]
  simp only [hcombinator, h]

theorem readComplex_of_readCompound (h : readCompound r s ts = some (x, rest)) :
    readComplex (r + 1) s ts = readChain r s (.single x) (skipBlanks rest) := by
  rw [readComplex.eq_def]
  simp only [h]

theorem readChain_of_ends (h : endsChain s ts = true) (r : Nat)
    (front : Complex) :
    readChain (r + 1) s front ts = some (front, ts) := by
  rw [readChain.eq_def]
  dsimp only
  rw [if_pos h]

end Steps

/-- Reads chains with commas between them, up to the end. -/
def readGroup : Nat → List Token → Option Group
  | 0, _ => none
  | rounds + 1, ts =>
    match readComplex rounds .first ts with
    | some (chain, []) => some [chain]
    | some (chain, .delim ',' :: rest) =>
      (readGroup rounds rest).map (chain :: ·)
    | _ => none

/-- The group of selectors that tokens spell. Every token is entered by at most
five readers, one inside the other. -/
def groupOf? (ts : List Token) : Option Group :=
  readGroup (5 * ts.length + 5) ts

end SheetBinding.Selector
