import SheetBinding.Markup.Place
import SheetBinding.Selector.Names
import SheetBinding.Text.Blank

/-!
What selectors select. A compound is a test of one place of a tree; a chain is
read from its last compound to its first, each combinator telling where to look
for the compound on its left. Where the first compound may stand is left open: a
search wants it on the axis that starts at its scope, a negation anywhere, and a
related selector next to the element that it is tested on.
-/

namespace SheetBinding

namespace Place

/-- The tag of the element at a place; a comment has none. -/
def tag? (p : Place) : Option String :=
  p.node.tag?

/-- The value of an attribute of the element at a place. -/
def attribute? (p : Place) (name : String) : Option String :=
  p.node.attribute? name

/-- Whether the element at a place has an attribute. -/
def hasAttribute (p : Place) (name : String) : Bool :=
  (p.attribute? name).isSome

/-- Whether the element at a place has one of some tags. -/
def isOneOf (p : Place) (tags : List String) : Bool :=
  p.tag?.any fun tag => tags.contains tag

/-- Whether an element around a place has the given tag and is disabled. -/
def isInsideDisabled (p : Place) (tag : String) : Bool :=
  p.ancestors.any fun a => a.tag? == some tag && a.hasAttribute "disabled"

/-- Whether a place holds an input of a kind that is named and not hidden. -/
def isVisibleInput (p : Place) : Bool :=
  p.tag? == some "input" && (p.attribute? "type").any (· != "hidden")

end Place

namespace Selector

/-- Whether a place passes the test of its name. Nothing is in a declared
namespace. -/
def ElementTest.holds (test : ElementTest) (p : Place) : Bool :=
  match test with
  | .any => p.isElement
  | .named name => p.tag? == some name
  | .qualified .. => false

/-- The places of which a combinator asks that the compound on its left holds at
one of them. -/
def Combinator.sources (c : Combinator) (p : Place) : List Place :=
  match c with
  | .descendant => p.ancestors
  | .child => p.parent?.toList
  | .adjacent => (p.preceding.find? Place.isElement).toList
  | .sibling => p.preceding

/-- The places that can end a chain which starts from a place by way of a
combinator. -/
def Combinator.reachable (c : Combinator) (p : Place) : List Place :=
  match c with
  | .descendant | .child => p.below
  | .adjacent | .sibling => p.following.flatMap Place.selfAndBelow

/-- The blanks between the words of a value. -/
def partsWords (c : Char) : Bool :=
  c == ' ' || c == '\t' || c == '\r' || c == '\n'

/-- The words of a value. -/
def words (value : String) : List (List Char) :=
  value.toList.splitBy (fun a b => partsWords a == partsWords b)
    |>.filter fun word => !word.any partsWords

/-- Whether a word is one of the words of a value. A word that is empty or holds
blanks never is. -/
def containsWord (value word : String) : Bool :=
  word != "" && !word.toList.any Text.isGap &&
    (words value).contains word.toList

/-- Whether a text is a part of another. -/
def occursIn (part : List Char) : List Char → Bool
  | [] => part.isEmpty
  | c :: rest => part.isPrefixOf (c :: rest) || occursIn part rest

/-- Whether the value of an attribute, or its absence, is as a test asks. -/
def AttributeRelation.holds (relation : AttributeRelation) (expected : String)
    (actual : Option String) : Bool :=
  match relation with
  | .present => actual.isSome
  | .equals => actual == some expected
  | .differs =>
    if expected == "" then actual.any (· != "") else actual != some expected
  | .startsWith =>
    expected != "" && actual.any fun v => expected.toList.isPrefixOf v.toList
  | .endsWith =>
    expected != "" && actual.any fun v => expected.toList.isSuffixOf v.toList
  | .contains =>
    expected != "" && actual.any fun v => occursIn expected.toList v.toList
  | .hasWord => actual.any fun v => containsWord v expected
  | .dashed =>
    actual.any fun v => v ==
      expected || (expected ++ "-").toList.isPrefixOf v.toList

/-- Whether the element at a place passes a test of an attribute. -/
def AttributeTest.holds (test : AttributeTest) (p : Place) : Bool :=
  test.space.isNone &&
    if test.ignoreCase then
      test.relation.holds (Text.asciiLowercase test.value)
        ((p.attribute? test.name).map Text.asciiLowercase)
    else test.relation.holds test.value (p.attribute? test.name)

/-- The siblings that a count passes over on its way to a place. -/
def Counting.passed (counting : Counting) (p : Place) : List Place :=
  let siblings := if counting.fromEnd then p.following else p.preceding
  siblings.filter fun q => if counting.ofType then q.tag? == p.tag?
    else q.isElement

/-- The position of a place among its siblings, counted from one. -/
def Counting.position (counting : Counting) (p : Place) : Nat :=
  (counting.passed p).length + 1

/-- Whether a position is `step · n + start` for some natural number `n`. -/
def inSeries (step start : Int) (position : Nat) : Bool :=
  let offset := (position : Int) - start
  if step == 0 then offset == 0 else offset % step == 0 && 0 ≤ offset / step

/-- Whether an element can be switched off by an element around it. -/
def isControl (p : Place) : Bool :=
  p.isVisibleInput || p.isOneOf ["button", "select", "textarea"]

/-- Whether an element is disabled, by itself or by a set of fields around
it. -/
def isDisabled (p : Place) : Bool :=
  (p.hasAttribute "disabled" &&
      (isControl p ||
        p.isOneOf ["command", "fieldset", "optgroup", "option"])) ||
    (isControl p && p.isInsideDisabled "fieldset")

/-- Whether an element is a link. -/
def isLink (p : Place) : Bool :=
  p.hasAttribute "href" && p.isOneOf ["a", "link", "area"]

/-- Whether the element at a place can be switched off and is not. -/
def isEnabled (p : Place) : Bool :=
  isLink p ||
    (p.isOneOf ["command", "fieldset", "optgroup"] &&
      !p.hasAttribute "disabled") ||
    ((isControl p || p.isOneOf ["keygen"]) &&
      !(p.hasAttribute "disabled" || p.isInsideDisabled "fieldset")) ||
    (p.isOneOf ["option"] && !(p.hasAttribute "disabled" ||
      p.isInsideDisabled "optgroup"))

/-- Whether the element at a place is an option or a box that is chosen. -/
def isChecked (p : Place) : Bool :=
  (p.hasAttribute "selected" && p.isOneOf ["option"]) ||
    (p.hasAttribute "checked" && p.isOneOf ["input", "command"] &&
      (p.attribute? "type").any fun kind => kind ==
        "checkbox" || kind == "radio")

/-- Whether the nearest language that is declared at or above a place is the
given one, or goes on from it with a hyphen. -/
def speaks (language : String) (p : Place) : Bool :=
  match (p :: p.ancestors).findSome? (·.attribute? "lang") with
  | none => false
  | some declared =>
    (Text.lowercase language ++ "-").toList.isPrefixOf
      (Text.asciiLowercase declared ++ "-").toList

/-- Whether a place is the first on an axis that can be meant by a name. A name
that is not simple is not looked at here. -/
def isFirstOn (axis : List Place) (element : ElementTest) (p : Place) : Bool :=
  let counted := axis.filter fun q => if element.countsTypes then
    element.holds q else q.isElement
  (counted.head?).any (·.id == p.id)

/-- Whether a pseudo-class holds at a place that passes the test of its name,
`axis` being where the search begins. -/
def PseudoClass.holds (axis : List Place) (element : ElementTest)
    (c : PseudoClass) (p : Place) : Bool :=
  match c with
  | .root => p.levels.isEmpty
  | .scope => isFirstOn axis element p
  | .firstChild => Counting.position ⟨false, false⟩ p == 1
  | .lastChild => Counting.position ⟨false, true⟩ p == 1
  | .onlyChild =>
    Counting.position ⟨false, false⟩ p ==
      1 && Counting.position ⟨false, true⟩ p == 1
  | .firstOfType => Counting.position ⟨true, false⟩ p == 1
  | .lastOfType => Counting.position ⟨true, true⟩ p == 1
  | .onlyOfType =>
    Counting.position ⟨true, false⟩ p ==
      1 && Counting.position ⟨true, true⟩ p == 1
  | .empty => !p.node.children.any Node.isElement && p.node.textContent == ""
  | .checked => isChecked p
  | .disabled => isDisabled p
  | .enabled => isEnabled p
  | .link => isLink p
  | .interactive => false

mutual

/-- Whether a condition holds at a place that passes the test of its name. -/
def Condition.holds (axis : List Place) (element : ElementTest) :
    Condition → Place → Bool
  | .id value, p => p.attribute? "id" == some value
  | .className value, p =>
    (p.attribute? "class").any fun v => containsWord v value
  | .attribute test, p => test.holds p
  | .pseudo c, p => c.holds axis element p
  | .nth counting step start, p => inSeries step start (counting.position p)
  | .containsText text, p => occursIn text.toList p.node.textContent.toList
  | .language tag, p => speaks tag p
  | .not chain, p => !chain.holds axis (fun _ => true) p
  | .anyOf compounds, p => Compound.anyHolds axis compounds p
  | .has related, p => Relative.anyHolds axis related p

/-- Whether conditions hold at a place, all of them. -/
def Condition.allHold (axis : List Place) (element : ElementTest) :
    List Condition → Place → Bool
  | [], _ => true
  | c :: rest, p =>
    c.holds axis element p && Condition.allHold axis element rest p

/-- Whether a compound holds at a place. -/
def Compound.holds (axis : List Place) : Compound → Place → Bool
  | .mk element conditions, p =>
    element.holds p && Condition.allHold axis element conditions p

/-- Whether one of some compounds holds at a place. -/
def Compound.anyHolds (axis : List Place) : List Compound → Place → Bool
  | [], _ => false
  | c :: rest, p => c.holds axis p || Compound.anyHolds axis rest p

/-- Whether a chain can end at a place when its first compound may stand where
`start` allows. -/
def Complex.holds (axis : List Place) (start : Place → Bool) :
    Complex → Place → Bool
  | .single compound, p => start p && compound.holds axis p
  | .join left combinator compound, p =>
    compound.holds axis p && (combinator.sources p).any fun q =>
      left.holds axis start q

/-- Whether some place is related to the given one as a relative selector
asks. -/
def Relative.holds (axis : List Place) : Relative → Place → Bool
  | .mk combinator chain, p =>
    (combinator.reachable p).any fun q =>
      chain.holds axis (fun r => (combinator.sources r).any (·.id == p.id)) q

/-- Whether one of some relative selectors finds a place related to the given
one. -/
def Relative.anyHolds (axis : List Place) : List Relative → Place → Bool
  | [], _ => false
  | r :: rest, p => r.holds axis p || Relative.anyHolds axis rest p

end

end Selector

end SheetBinding
