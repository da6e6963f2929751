/-!
Selectors. A selector is a group of complex selectors; a complex selector is a
chain of compound selectors joined by combinators; a compound selector tests one
element: its name, and any number of further conditions.
-/

namespace SheetBinding.Selector

/-- How the element a compound selects is related to the one on its left. -/
inductive Combinator where
  /-- It stands anywhere below. -/
  | descendant
  /-- It is a child. -/
  | child
  /-- It is the next element among the siblings. -/
  | adjacent
  /-- It comes later among the siblings. -/
  | sibling
  deriving DecidableEq, Repr

/-- What a compound asks of the name of an element. -/
inductive ElementTest where
  | any
  | named (name : String)
  /-- A name, or any name, in the namespace that a declared prefix stands
  for. -/
  | qualified (space : String) (name : Option String)
  deriving DecidableEq, Repr

/-- How the value of an attribute is compared. -/
inductive AttributeRelation where
  | present
  | equals
  | differs
  | startsWith
  | endsWith
  | contains
  /-- One of the words of the value is the given one. -/
  | hasWord
  /-- The value is the given one, or goes on from it with a hyphen. -/
  | dashed
  deriving DecidableEq, Repr

/-- A condition on one attribute. -/
structure AttributeTest where
  /-- The prefix of a declared namespace, if the name has one. -/
  space : Option String
  name : String
  relation : AttributeRelation
  value : String
  ignoreCase : Bool
  deriving DecidableEq, Repr

/-- The pseudo-classes without arguments. -/
inductive PseudoClass where
  | root
  /-- The first element where the search begins. -/
  | scope
  | firstChild
  | lastChild
  | onlyChild
  | firstOfType
  | lastOfType
  | onlyOfType
  | empty
  | checked
  | disabled
  | enabled
  | link
  /-- Those that depend on what a reader does, which no element ever meets. -/
  | interactive
  deriving DecidableEq, Repr

/-- Which siblings a position counts. -/
structure Counting where
  ofType : Bool
  fromEnd : Bool
  deriving DecidableEq, Repr

mutual

/-- A condition on one element, its name apart. -/
inductive Condition where
  | id (value : String)
  | className (value : String)
  | attribute (test : AttributeTest)
  | pseudo (pseudoClass : PseudoClass)
  /-- The position is one of `step · n + start` for a natural `n`. -/
  | nth (counting : Counting) (step start : Int)
  | containsText (text : String)
  | language (tag : String)
  | not (selector : Complex)
  | anyOf (alternatives : List Compound)
  | has (related : List Relative)

/-- A test of one element: its name, and further conditions that must all
hold. -/
inductive Compound where
  | mk (element : ElementTest) (conditions : List Condition)

/-- A chain of compounds, read from left to right. -/
inductive Complex where
  | single (compound : Compound)
  | join (left : Complex) (combinator : Combinator) (right : Compound)

/-- A chain that starts from a given element, by way of a combinator. -/
inductive Relative where
  | mk (combinator : Combinator) (selector : Complex)

end

deriving instance Repr for Condition, Compound, Complex, Relative

/-- Several chains, an element being selected if one of them selects it. -/
abbrev Group := List Complex

/-! ## How deep selectors are

Each condition of a compound lies around those before it, and each combinator of
a chain around the compounds on both sides of it. -/

mutual

/-- How deep a condition is. -/
def Condition.depth : Condition → Nat
  | .not chain => chain.depth + 1
  | .anyOf compounds => Compound.deepest compounds + 1
  | .has related => Relative.deepest related + 1
  | .id _ | .className _ | .attribute _ | .pseudo _ | .nth .. | .containsText _
  | .language _ => 1

/-- How deep conditions are of which each lies around those before it. -/
def Condition.stacked : List Condition → Nat
  | [] => 0
  | c :: rest => max (c.depth + rest.length) (Condition.stacked rest)

/-- How deep a compound is. -/
def Compound.depth : Compound → Nat
  | .mk _ conditions => Condition.stacked conditions + 1

/-- How deep the deepest of some compounds is. -/
def Compound.deepest : List Compound → Nat
  | [] => 0
  | c :: rest => max c.depth (Compound.deepest rest)

/-- How deep a chain is. -/
def Complex.depth : Complex → Nat
  | .single compound => compound.depth
  | .join left _ right => max left.depth right.depth + 1

/-- How deep a relative selector is. -/
def Relative.depth : Relative → Nat
  | .mk _ chain => chain.depth + 1

/-- How deep the deepest of some relative selectors is. -/
def Relative.deepest : List Relative → Nat
  | [] => 0
  | r :: rest => max r.depth (Relative.deepest rest)

end

end SheetBinding.Selector
