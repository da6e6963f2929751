import SheetBinding.Grammar.Block
import SheetBinding.Grammar.Position
import SheetBinding.Rule.Plan

/-!
Sheets: rules in the order they were written, which is the order they are
applied in. A text is read as a whole sheet, as one rule, or as one setting; the
shape of the whole text is settled before the first rule is planned.
-/

namespace SheetBinding

/-- A sheet of rules. -/
structure Sheet where
  rules : List Rule
  deriving Repr

/-- Why a text is no sheet, no rule or no setting. -/
inductive ReadError where
  | malformedSheet (place : Position)
  | malformedRule (place : Position)
  /-- The text goes wrong inside a setting. -/
  | malformedSetting (place : Position)
  | rule (cause : RuleError)
  deriving DecidableEq, Repr

namespace ReadError

/-- Whether a failure is one that sheets are expected to have. -/
def isExpected : ReadError → Bool
  | rule e => e.isExpected
  | _ => true

/-- What a command tells of a failure. -/
def summary : ReadError → String
  | rule e => e.summary
  | _ => "<syntax>"

end ReadError

namespace Sheet

/-- The text of a sheet: its rules, with an empty line between them. -/
def toText (s : Sheet) : String :=
  "\n".intercalate (s.rules.map Rule.toText)

/-- Equality of lists of rules, place by place. -/
def sameRules : List Rule → List Rule → Bool
  | [], [] => true
  | a :: as, b :: bs => a.same b && sameRules as bs
  | _, _ => false

/-- Whether two sheets are equal: they have the same rules in the same order. -/
def same (a b : Sheet) : Bool :=
  sameRules a.rules b.rules

/-- The rules of blocks; the first block that makes no rule decides the
error. -/
def planAll : List Grammar.Block → Except RuleError (List Rule)
  | [] => .ok []
  | b :: rest =>
    match Rule.plan b.selector b.settings with
    | .error e => .error e
    | .ok rule => (planAll rest).map (rule :: ·)

/-- Reads a sheet. Its shape is checked as a whole before any rule is
planned. -/
def read (s : String) : Except ReadError Sheet :=
  let text := Text.trim s.toList
  match Grammar.sheetBlocks text with
  | .error stop => .error (.malformedSheet (.ofLeft text stop.left))
  | .ok blocks => ((planAll blocks).map Sheet.mk).mapError .rule

end Sheet

/-- Reads a text that is one rule. -/
def Rule.read (s : String) : Except ReadError Rule :=
  let text := Text.trim s.toList
  match Grammar.oneBlock text with
  | .error stop =>
    let place := Position.ofLeft text stop.left
    .error (if stop.insideSetting then .malformedSetting place
      else .malformedRule place)
  | .ok block => (Rule.plan block.selector block.settings).mapError .rule

/-- Reads a text that is one setting. -/
def Settings.readPair (s : String) : Except ReadError (String × String) :=
  let text := Text.trim s.toList
  match Grammar.oneSetting text with
  | .error stop => .error (.malformedSetting (.ofLeft text stop.left))
  | .ok pair => .ok pair

end SheetBinding
