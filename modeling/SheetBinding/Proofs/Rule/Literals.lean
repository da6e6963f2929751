import SheetBinding.Proofs.Literal
import SheetBinding.Proofs.Sheet.RoundTrip

/-!
# Values written into rules come back

Any list of values can be written as the source of a rule, and any value as its
default. On the way back a literal is first a value in the sense of the grammar,
where semicolons and braces must not end it, and then a list or a scalar in its
own right. `read_literals` follows it all the way, from the text of a rule with
one setting to the plan.
-/

namespace SheetBinding

open Grammar Text

/-! ## A rule with one setting -/

/-- The text of a rule for all paragraphs with one setting. -/
def oneSettingText (name value : String) : String :=
  "p \x7b " ++ name ++ ": " ++ value ++ "; \x7d"

theorem blockText_oneSettingText {name value : String}
    (h : PlainSetting (name, value)) :
    BlockText ⟨"p", [(name, value)]⟩ (oneSettingText name value).toList := by
  have hp : IsText isSelectorChar "p".toList :=
    ⟨.plain (by decide) .nil, 'p', [], rfl, by decide⟩
  have hsetting : SettingText (name, value) (name.toList ++
      ([] ++ ':' :: ([' '] ++ (value.toList ++ ([] ++ [';']))))) :=
    ⟨_, _, _, _, _, h.name, h.value, gap_nil, .cons rfl gap_nil,
      gap_nil, rfl, by
      rw [String.ofList_toList, String.ofList_toList, h.trimmed_value]⟩
  refine ⟨_, [' '], [' '], _, hp, .cons rfl gap_nil, .cons rfl gap_nil,
    .cons hsetting (w := [' ']) (.cons rfl gap_nil) .nil, ?_, rfl⟩
  simp [oneSettingText, String.toList_append]

/-- A rule with one setting is read as just that. -/
theorem read_oneSettingText {name value : String}
    (h : PlainSetting (name, value)) :
    Rule.read (oneSettingText name value) =
      (Rule.plan "p" [(name, value)]).mapError .rule := by
  have hblock := blockText_oneSettingText h
  rw [← hblock.trim_eq] at hblock
  rw [Rule.read_of_blockText hblock]

theorem isName_of_mem_knownSettings {name : String} (h : name ∈ knownSettings) :
    IsName name.toList := by
  have hall : knownSettings.all (fun name =>
      !name.toList.isEmpty && name.toList.all isNameChar) = true := by
        decide +kernel
  have hname := List.all_eq_true.1 hall name h
  rw [Bool.and_eq_true, List.all_eq_true] at hname
  exact ⟨by simpa using hname.1, hname.2⟩

/-- The names that have a meaning differ in more than case. -/
theorem lowercase_injective_on_known :
    ∀ a ∈ knownSettings, ∀ b ∈ knownSettings, lowercase a = lowercase b →
      a = b := by
  decide +kernel

/-- The settings of one name and value. -/
def Settings.single (name value : String) : Settings :=
  ⟨[(name, value)], by simp⟩

theorem Settings.get?_single_self (name value : String) :
    (Settings.single name value).get? name = some value := by
  rw [Settings.get?, Settings.single, List.find?_cons, beq_self_eq_true]
  rfl

theorem Settings.get?_single {name other : String} (value : String)
    (hname : name ∈ knownSettings) (hother : other ∈ knownSettings)
    (hne : name ≠ other) :
    (Settings.single name value).get? other = none := by
  have hlower : lowercase name ≠ lowercase other := fun he =>
    hne (lowercase_injective_on_known name hname other hother he)
  rw [Settings.get?, Settings.single, List.find?_cons, beq_false_of_ne hlower]
  rfl

theorem exists_plan_source {text : String} {values : List Scalar}
    (h : Literal.list text = .ok values) :
    ∃ r, Rule.plan "p" [("binding-source", text)] = .ok r ∧
      r.source = some values := by
  have hnone : ∀ other ∈ knownSettings, "binding-source" ≠ other →
      (Settings.single "binding-source" text).get? other = none := fun other =>
    Settings.get?_single text (by decide)
  have hsource : Rule.planSource (Settings.single "binding-source" text) =
      .ok (some values) := by
    rw [Rule.planSource, Settings.get?_single_self]
    dsimp only
    rw [h]
    rfl
  obtain ⟨r, hplan, hr, -⟩ := Rule.exists_plan_of_usual hsource
    (Rule.planDefault_of_none (hnone _ (by decide) (by decide)))
    (hnone _ (by decide) (by decide)) (hnone _ (by decide) (by decide))
  exact ⟨r, hplan, hr⟩

/-- A rule with a default and nothing else has no list and binds objects. -/
theorem planSource_single_default (text : String) :
    Rule.planSource (Settings.single "binding-source-default" text) = .ok none ∧
      Rule.planSourceType (Settings.single "binding-source-default" text) none =
        .ok .object := by
  have hnone : ∀ other ∈ knownSettings, "binding-source-default" ≠ other →
      (Settings.single "binding-source-default" text).get? other = none :=
    fun other => Settings.get?_single text (by decide)
  exact ⟨Rule.planSource_of_none (hnone _ (by decide) (by decide)),
    Rule.planSourceType_of_none (hnone _ (by decide) (by decide)) none⟩

theorem exists_plan_default {text : String} {value : Scalar}
    (h : Literal.scalar text = .ok value) :
    ∃ r, Rule.plan "p" [("binding-source-default", text)] = .ok r ∧
      r.default = some value := by
  have hnone : ∀ other ∈ knownSettings, "binding-source-default" ≠ other →
      (Settings.single "binding-source-default" text).get? other = none :=
    fun other => Settings.get?_single text (by decide)
  have hdefault : Rule.planDefault (Settings.single "binding-source-default"
      text) = .ok (some value) := by
    rw [Rule.planDefault, Settings.get?_single_self]
    dsimp only
    rw [h]
    rfl
  obtain ⟨r, hplan, -, hr⟩ :=
    Rule.exists_plan_of_usual (planSource_single_default text).1 hdefault
    (hnone _ (by decide) (by decide)) (hnone _ (by decide) (by decide))
  exact ⟨r, hplan, hr⟩

/-! ## Values -/

theorem plainSetting {name : String} {value : List Char}
    (hname : IsName name.toList) (hvalue : IsText isValueChar value)
    (htrim : trim value = value) :
    PlainSetting (name, String.ofList value) :=
  ⟨hname,
    by rwa [String.toList_ofList], by rw [trimmed, String.toList_ofList, htrim]⟩

/-- Whatever values a list holds, if each has a literal, and whatever quotes its
texts are written with, a rule that has the list as its source is read as a rule
with these values; and a rule that has the literal of one such value as its
default is read as a rule with that default. -/
theorem read_literals :
    (∀ items : List (Char × Scalar),
      (∀ i ∈ items, isQuote i.1 = true ∧ i.2.HasLiteral) →
      ∃ r, Rule.read (oneSettingText "binding-source"
          (String.ofList (Literal.listLiteral items))) = .ok r ∧
        r.source = some (items.map (·.2))) ∧
    ∀ (q : Char) (v : Scalar), isQuote q = true → v.HasLiteral →
      ∃ r, Rule.read (oneSettingText "binding-source-default"
          (String.ofList (v.literal q))) = .ok r ∧
        r.default = some v := by
  constructor
  · intro items hitems
    have hq : ∀ i ∈ items, isQuote i.1 = true := fun i hi => (hitems i hi).1
    have hname := isName_of_mem_knownSettings
      (by decide : "binding-source" ∈ knownSettings)
    have hplain := plainSetting hname
      (Literal.isText_listLiteral hq) (Literal.trim_listLiteral items)
    obtain ⟨r, hplan, hr⟩ := exists_plan_source
      (Literal.list_listLiteral hq fun i hi => (hitems i hi).2)
    exact ⟨r, by rw [read_oneSettingText hplain, hplan]; rfl, hr⟩
  · intro q v hq hv
    have hname := isName_of_mem_knownSettings
      (by decide : "binding-source-default" ∈ knownSettings)
    have hplain := plainSetting hname
      (Literal.isText_literal hq v) (Literal.trim_literal hq v)
    obtain ⟨r, hplan, hr⟩ := exists_plan_default (Literal.scalar_literal hq hv)
    exact ⟨r, by rw [read_oneSettingText hplain, hplan]; rfl, hr⟩

/-- Values of every kind, the whole numbers being the outermost of their
kinds. -/
def sampleValues : List (Char × Scalar) := [
  ('\'', .text "it's; \\\"\x7d"), ('"', .text ""), ('"', .int32 (-2147483648)),
  ('"', .int64 9223372036854775807), ('"', .decimal ⟨true, 50, -3⟩),
    ('"', .null)]

theorem read_literals_sample :
    (∃ r, Rule.read (oneSettingText "binding-source"
        (String.ofList (Literal.listLiteral sampleValues))) = .ok r ∧
      r.source = some (sampleValues.map (·.2))) ∧
    ∃ r, Rule.read (oneSettingText "binding-source-default"
        (String.ofList ((Scalar.decimal ⟨true, 50, -3⟩).literal '"'))) = .ok r ∧
      r.default = some (.decimal ⟨true, 50, -3⟩) := by
  have hsample : ∀ i ∈ sampleValues, isQuote i.1 = true ∧ i.2.HasLiteral := by
    decide
  have hdecimal : (Scalar.decimal ⟨true, 50, -3⟩).HasLiteral := by decide
  exact ⟨read_literals.1 sampleValues hsample,
    read_literals.2 '"' _ (by decide) hdecimal⟩

example : String.ofList (Literal.listLiteral sampleValues) =
    "['it\\'s; \\\\\"\x7d', \"\", -2147483648, 9223372036854775807, " ++
      "-0.050, <null>]" := by
  decide +kernel

end SheetBinding
