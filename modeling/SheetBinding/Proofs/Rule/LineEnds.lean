import SheetBinding.Proofs.Literal.LineEnds
import SheetBinding.Proofs.Rule.Plan
import SheetBinding.Proofs.Selector.LineEnds

/-!
# Planning with other line ends

A block planned from a text with its line ends unified fails if and only if the
block fails, and then with an error of the same class (`Rule.errorClass?_plan`):
a selector has the same tokens, a value that a setting allows holds no line end,
and a literal that cannot be converted is one that holds too many digits, which
are no line ends either. What the rule says when there is one may differ, since
the selector and the settings keep the line ends of the text.
-/

namespace SheetBinding

open Text

namespace Text

theorem mem_lowerAfter {c : Char} (hsigma : (c.toNat == 0x3A3) = false)
    (hsmall : lowerOne c = [c]) {before cs : List Char} (h : c ∈ cs) :
    c ∈ lowerAfter before cs := by
  induction cs generalizing before with
  | nil => cases h
  | cons d rest ih =>
      rw [lowerAfter]
      refine List.mem_append.2 ?_
      rcases List.mem_cons.1 h with rfl | h
      · rw [hsigma, if_neg Bool.false_ne_true, hsmall]
        exact .inl (List.mem_singleton_self c)
      · exact .inr (ih h)

/-- Line ends have no lower case. -/
theorem mem_lowercase {c : Char} (hc : c = '\r' ∨ c = '\n') {s : String}
    (h : c ∈ s.toList) :
    c ∈ (lowercase s).toList := by
  rw [lowercase, String.toList_ofList]
  rcases hc with rfl | rfl <;> exact mem_lowerAfter (by decide) (by decide) h

end Text

/-- The classes of the errors that loading a sheet can end with. -/
inductive ErrorClass where
  | unknownEncoding
  | undecodable
  | malformedSheet
  | malformedRule
  | malformedSetting
  | duplicateSetting
  | unsupportedSource
  | valueNotAllowed
  /-- A value that cannot be converted or stored. -/
  | badValue
  /-- A list item that cannot be converted. -/
  | badItem
  deriving DecidableEq, Repr

/-- A selector that spells nothing makes a malformed rule. -/
def RuleError.errorClass : RuleError → ErrorClass
  | selector (.malformed _) => .malformedRule
  | selector .unstorable => .badValue
  | duplicate _ => .duplicateSetting
  | literal .tooManyDigits => .badValue
  | literal .itemTooManyDigits => .badItem
  | literal (.notAList _) => .unsupportedSource
  | notAllowed .. => .valueNotAllowed

/-- The class of the error that planning ends with, if it ends with one. -/
def errorClass? {α : Type} : Except RuleError α → Option ErrorClass
  | .ok _ => none
  | .error e => some e.errorClass

theorem errorClass?_bind {α β γ δ : Type} {x : Except RuleError α}
    {y : Except RuleError β} {f : α → Except RuleError γ}
    {g : β → Except RuleError δ} (hxy : errorClass? x = errorClass? y)
    (hfg : ∀ a b, x = .ok a → y = .ok b →
      errorClass? (f a) = errorClass? (g b)) :
    errorClass? (x >>= f) = errorClass? (y >>= g) := by
  cases x with
  | error d =>
      cases y with
      | error e => exact hxy
      | ok b => cases hxy
  | ok a =>
      cases y with
      | error e => cases hxy
      | ok b => exact hfg a b rfl rfl

theorem errorClass?_map {α β : Type} (f : α → β) (x : Except RuleError α) :
    errorClass? (x.map f) = errorClass? x := by
  cases x <;> rfl

theorem errorClass?_congr {α β : Type} {x : Except RuleError α}
    {y : Except RuleError β} (h : ∀ e, x = .error e ↔ y = .error e) :
    errorClass? x = errorClass? y := by
  cases x with
  | error d =>
      rw [(h d).1 rfl]
      rfl
  | ok a =>
      cases y with
      | error e => cases (h e).2 rfl
      | ok b => rfl

/-- Settings with the line ends of their values unified. -/
def unifiedValues (pairs : List (String × String)) : List (String × String) :=
  pairs.map fun pair => (pair.1, unified pair.2)

namespace Settings

variable {pairs : List (String × String)} {s t : Settings}

theorem repeatedName?_unifiedValues (seen : List String)
    (pairs : List (String × String)) :
    repeatedName? seen (unifiedValues pairs) = repeatedName? seen pairs := by
  induction pairs generalizing seen with
  | nil => rfl
  | cons pair rest ih =>
      rw [unifiedValues, List.map_cons, repeatedName?, repeatedName?]
      split
      · rfl
      · exact ih _

theorem errorClass?_ofPairs (pairs : List (String × String)) :
    errorClass? ((ofPairs (unifiedValues pairs)).mapError .duplicate) =
      errorClass? ((ofPairs pairs).mapError .duplicate) := by
  have hclass : ∀ pairs, errorClass? ((ofPairs pairs).mapError .duplicate) =
      (repeatedName? [] pairs).map fun _ => .duplicateSetting := fun pairs => by
    rw [ofPairs]
    split
    · next h =>
        exact (congrArg
          (Option.map fun _ => ErrorClass.duplicateSetting) h).symm
    · next h =>
        exact (congrArg
          (Option.map fun _ => ErrorClass.duplicateSetting) h).symm
  rw [hclass, hclass, repeatedName?_unifiedValues]

theorem get?_unifiedValues (h : s.pairs = unifiedValues t.pairs)
    (name : String) :
    s.get? name = (t.get? name).map unified := by
  rw [get?, get?, h, unifiedValues, List.find?_map, Option.map_map,
    Option.map_map]
  rfl

end Settings

namespace Rule

variable {s t : Settings}

theorem errorClass?_choice {α : Type} (setting : String)
    {allowed : List (String × α)}
    (hallowed : ∀ entry ∈ allowed, '\r' ∉ entry.1.toList ∧
      '\n' ∉ entry.1.toList) (value : String) :
    errorClass? (choice setting allowed (unified value)) =
      errorClass? (choice setting allowed value) := by
  have hnone : ∀ {c : Char} {s : String}, c = '\r' ∨ c = '\n' → c ∈ s.toList →
      allowed.lookup (lowercase s) = none := by
    intro c s hc hmem
    refine List.lookup_eq_none_iff.2 fun entry hentry => ?_
    rw [bne_iff_ne]
    intro he
    have hin := mem_lowercase hc hmem
    rw [he] at hin
    rcases hc with rfl | rfl
    · exact (hallowed entry hentry).1 hin
    · exact (hallowed entry hentry).2 hin
  rw [choice, choice, trimmed_unified]
  rcases unifyLineEnds_cases (trimmed value).toList with h | ⟨hreturn, hfeed⟩
  · have hsame : unified (trimmed value) = trimmed value := by
      rw [unified, h, String.ofList_toList]
    rw [hsame]
  · rw [← toList_unified] at hfeed
    rw [hnone (.inl rfl) hreturn, hnone (.inr rfl) hfeed]
    simp only [errorClass?, RuleError.errorClass]

theorem errorClass?_planSource
    (h : ∀ name, s.get? name = (t.get? name).map unified) :
    errorClass? (planSource s) = errorClass? (planSource t) := by
  rw [planSource, planSource, h]
  cases t.get? "binding-source" with
  | none => rfl
  | some text =>
      rw [Option.map_some]
      dsimp only
      rw [Literal.list, Literal.list, toList_unified, trim_unifyLineEnds,
        Literal.items?_unifyLineEnds]
      cases Literal.items? (trim text.toList) with
      | none => rfl
      | some items =>
          refine errorClass?_congr fun e => ?_
          simp only [Option.map_some, mapError_eq_error_iff, map_eq_error_iff,
            Literal.ofItems_unifyLineEnds_eq_error_iff]

theorem errorClass?_planDefault
    (h : ∀ name, s.get? name = (t.get? name).map unified) :
    errorClass? (planDefault s) = errorClass? (planDefault t) := by
  rw [planDefault, planDefault, h]
  cases t.get? "binding-source-default" with
  | none => rfl
  | some text =>
      refine errorClass?_congr fun e => ?_
      simp only [Option.map_some, mapError_eq_error_iff, map_eq_error_iff,
        Literal.scalar_unified_eq_error_iff]

theorem errorClass?_planSourceType
    (h : ∀ name, s.get? name = (t.get? name).map unified)
    (source source' : Option (List Scalar)) :
    errorClass? (planSourceType s source) =
      errorClass? (planSourceType t source') := by
  rw [planSourceType, planSourceType, h]
  cases t.get? "binding-source-type" with
  | none => rfl
  | some text => exact errorClass?_choice _ (by decide) text

theorem errorClass?_planNullBehavior
    (h : ∀ name, s.get? name = (t.get? name).map unified) :
    errorClass? (planNullBehavior s) = errorClass? (planNullBehavior t) := by
  rw [planNullBehavior, planNullBehavior, h]
  cases t.get? "binding-null-behavior" with
  | none => rfl
  | some text => exact errorClass?_choice _ (by decide) text

theorem errorClass?_compile (text : String) :
    errorClass? ((Selector.compile (unified text)).mapError .selector) =
      errorClass? ((Selector.compile text).mapError .selector) := by
  rw [Selector.compile, Selector.compile]
  simp only [trimmed_unified, toList_unified, Selector.read?_unifyLineEnds]
  cases Selector.read? (trimmed text).toList with
  | none => simp only [Except.mapError, errorClass?, RuleError.errorClass]
  | some group =>
      dsimp only
      split
      · rfl
      · split
        · simp only [Except.mapError, errorClass?, RuleError.errorClass]
        · simp only [Except.mapError, errorClass?]

theorem errorClass?_plan (text : String) (pairs : List (String × String)) :
    errorClass? (plan (unified text) (unifiedValues pairs)) =
      errorClass? (plan text pairs) := by
  refine errorClass?_bind (errorClass?_compile text) fun _ _ _ _ => ?_
  refine errorClass?_bind (Settings.errorClass?_ofPairs pairs)
    fun s t hs ht => ?_
  have hget : ∀ name, s.get? name = (t.get? name).map unified := by
    rw [mapError_eq_ok_iff, Settings.ofPairs_eq_ok_iff] at hs ht
    exact Settings.get?_unifiedValues (by rw [hs, ht])
  refine errorClass?_bind (errorClass?_planSource hget)
    fun source source' _ _ => ?_
  refine errorClass?_bind (errorClass?_planSourceType hget source source')
    fun _ _ _ _ => ?_
  refine errorClass?_bind (errorClass?_planDefault hget) fun _ _ _ _ => ?_
  exact errorClass?_bind (errorClass?_planNullBehavior hget) fun _ _ _ _ => rfl

end Rule

end SheetBinding
