import SheetBinding.Selector.Names
import SheetBinding.Text.Blank

/-!
What a selector mentions: the namespace prefixes that it keeps apart, and every
text that it compares with a part of the document. A test that nothing can pass
compares nothing.
-/

namespace SheetBinding.Selector

/-- One thing that a selector mentions. -/
inductive Mention where
  | space (name : String)
  | text (value : String)
  deriving DecidableEq, Repr

/-- What the test of a name mentions. -/
def ElementTest.mentions : ElementTest → List Mention
  | .any => []
  | .named name => [.text name]
  | .qualified space name => .space space :: (name.map Mention.text).toList

/-- Whether a text is compared with the words of a value: it is not empty and
holds no blank, a line feed at its end excepted. -/
def isWord (s : String) : Bool :=
  withoutFeed s != "" && !(withoutFeed s).toList.any Text.isGap

/-- Whether no value passes a test of an attribute, whatever the attribute. -/
def AttributeTest.isVoid (test : AttributeTest) : Bool :=
  match test.relation with
  | .startsWith | .endsWith | .contains => test.value == ""
  | .hasWord => !isWord test.value
  | _ => false

/-- What the test of an attribute mentions. -/
def AttributeTest.mentions (test : AttributeTest) : List Mention :=
  if test.isVoid then []
  else
    (test.space.map Mention.space).toList ++
      [.text test.name, .text test.value]

mutual

/-- What a condition mentions. -/
def Condition.mentions : Condition → List Mention
  | .id value => [.text value]
  | .className value => if isWord value then [.text value] else []
  | .attribute test => test.mentions
  | .pseudo _ => []
  | .nth .. => []
  | .containsText text => [.text text]
  | .language tag => [.text tag]
  | .not chain => chain.mentions
  | .anyOf compounds => Compound.allMentions compounds
  | .has related => Relative.allMentions related

/-- What some conditions mention. -/
def Condition.allMentions : List Condition → List Mention
  | [] => []
  | c :: rest => c.mentions ++ Condition.allMentions rest

/-- What a compound mentions. -/
def Compound.mentions : Compound → List Mention
  | .mk element conditions =>
    element.mentions ++ Condition.allMentions conditions

/-- What some compounds mention. -/
def Compound.allMentions : List Compound → List Mention
  | [] => []
  | c :: rest => c.mentions ++ Compound.allMentions rest

/-- What a chain mentions. -/
def Complex.mentions : Complex → List Mention
  | .single compound => compound.mentions
  | .join left _ compound => left.mentions ++ compound.mentions

/-- What a relative selector mentions. -/
def Relative.mentions : Relative → List Mention
  | .mk _ chain => chain.mentions

/-- What some relative selectors mention. -/
def Relative.allMentions : List Relative → List Mention
  | [] => []
  | r :: rest => r.mentions ++ Relative.allMentions rest

end

/-- What a group mentions. -/
def Group.mentions (group : Group) : List Mention :=
  group.flatMap Complex.mentions

/-- Whether a mention is a prefix that stands for no namespace; the prefix `xml`
always stands for one. -/
def Mention.isUndeclared : Mention → Bool
  | .space name => name != "xml"
  | .text _ => false

/-- Whether a mention is a prefix with a line feed at its end, which parts it
from its colon. -/
def Mention.isParted : Mention → Bool
  | .space name => withoutFeed name != name
  | .text _ => false

/-- The text of a mention. -/
def Mention.content : Mention → String
  | .space name => name
  | .text value => value

end SheetBinding.Selector
