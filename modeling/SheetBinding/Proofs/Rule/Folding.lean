import SheetBinding.Binding.Apply
import SheetBinding.Proofs.Rule.Plan

/-!
# What a rule takes from its settings

Settings are kept as they were written, so that a rule can be written down
again. All else that a rule does with them goes through the map from lower-cased
names to values. Every part of a plan is read by lookups, so two plans made from
settings of one map differ in nothing but the settings that they keep
(`planWith_congr`). That is more than equality of rules, which compares numbers
by value.
-/

namespace SheetBinding

open Text

/-! ## Equality of rules -/

namespace Scalar

theorem sameValue_self (v : Scalar) : v.sameValue v = true := by
  cases v <;> simp [sameValue, number?, Decimal.sameValue]

theorem sameValues_self (vs : List Scalar) : sameValues vs vs = true := by
  induction vs with
  | nil => rfl
  | cons v rest ih => rw [sameValues, sameValue_self, ih, Bool.and_self]

end Scalar

namespace Rule

variable {r : Rule} {s t : Settings}

theorem same_withSettings (h : r.settings.sameMap s = true) :
    r.same { r with settings := s } = true := by
  have hsource : sameSource r.source r.source = true := by
    cases hr : r.source with
    | none => rfl
    | some vs => exact Scalar.sameValues_self vs
  have hdefault : sameDefault r.default r.default = true := by
    cases hr : r.default with
    | none => rfl
    | some v => exact Scalar.sameValue_self v
  simp [same, h, hsource, hdefault]

theorem same_self (r : Rule) : r.same r = true :=
  same_withSettings (Settings.sameMap_iff.2 fun _ => Iff.rfl)

/-- What a rule is hashed by. -/
def hashed (r : Rule) :
    String × Finset (String × String) × Option (List Scalar) × SourceType ×
      Option Scalar × Option String × Option String × NullBehavior :=
  (r.selector.text, (Settings.folded r.settings.pairs).toFinset, r.source,
    r.sourceType, r.default,
    r.path, r.format, r.nullBehavior)

theorem hashed_withSettings
    (h : ∀ entry, entry ∈ Settings.folded r.settings.pairs ↔
      entry ∈ Settings.folded s.pairs) :
    r.hashed = hashed { r with settings := s } := by
  have hset : (Settings.folded r.settings.pairs).toFinset =
      (Settings.folded s.pairs).toFinset := by
    ext entry
    rw [List.mem_toFinset, List.mem_toFinset]
    exact h entry
  rw [hashed, hset]
  rfl

/-- Applying a rule does not look at its settings. -/
theorem apply_withSettings (r : Rule) (s : Settings) (doc : Document)
    (scope : Option Nat) (descendants : Bool) :
    apply { r with settings := s } doc scope descendants =
      r.apply doc scope descendants := rfl

/-! ## Plans -/

/-- What a compiled selector and collected settings are made into. -/
def planWith (selector : Selector) (settings : Settings) :
    Except RuleError Rule := do
  let source ← planSource settings
  let sourceType ← planSourceType settings source
  let default ← planDefault settings
  let nullBehavior ← planNullBehavior settings
  return {
    selector, settings, source, sourceType, default
    path := planPath settings
    format := planFormat settings
    nullBehavior }

theorem plan_eq_bind {text : String} {pairs : List (String × String)}
    (h : s.pairs = pairs) :
    plan text pairs =
      (Selector.compile text).mapError .selector >>= fun selector =>
        planWith selector s := by
  have hsettings : (Settings.ofPairs pairs).mapError RuleError.duplicate =
      .ok s := mapError_eq_ok_iff.2 (Settings.ofPairs_eq_ok_iff.2 h)
  rw [plan, hsettings]
  rfl

/-- A plan is read off the settings that have a meaning. -/
theorem planWith_congr (selector : Selector)
    (h : ∀ name ∈ knownSettings, s.get? name = t.get? name) :
    planWith selector t = (planWith selector s).map fun r =>
      { r with settings := t } := by
  have hsource : planSource t = planSource s := by
    rw [planSource, planSource, h _ (by decide)]
  have hsourceType : planSourceType t = planSourceType s := by
    funext source
    rw [planSourceType, planSourceType, h _ (by decide)]
  have hdefault : planDefault t = planDefault s := by
    rw [planDefault, planDefault, h _ (by decide)]
  have hnull : planNullBehavior t = planNullBehavior s := by
    rw [planNullBehavior, planNullBehavior, h _ (by decide)]
  have hpath : planPath t = planPath s := by
    rw [planPath, planPath, h _ (by decide)]
  have hformat : planFormat t = planFormat s := by
    rw [planFormat, planFormat, h _ (by decide)]
  rw [planWith, planWith, hsource, hsourceType, hdefault, hnull, hpath, hformat]
  simp only [map_bind]
  rfl

theorem plan_congr_known (text : String)
    (h : ∀ name ∈ knownSettings, s.get? name = t.get? name) :
    plan text t.pairs = (plan text s.pairs).map fun r =>
      { r with settings := t } := by
  rw [plan_eq_bind rfl, plan_eq_bind rfl, map_bind]
  simp only [planWith_congr _ h]

theorem plan_congr (text : String) (h : ∀ name, s.get? name = t.get? name) :
    plan text t.pairs = (plan text s.pairs).map fun r =>
      { r with settings := t } :=
  plan_congr_known text fun name _ => h name

/-- Settings of one map fail to make a rule in the same way, or they make rules
that are equal and hash alike, and differ in nothing but the settings that they
keep. Rules that are equal were made from one selector text and from settings of
one map. -/
theorem plan_folded :
    (∀ (text : String) (pairs₁ pairs₂ : List (String × String)),
      ((Settings.folded pairs₁).map Prod.fst).Nodup →
      ((Settings.folded pairs₂).map Prod.fst).Nodup →
      (∀ entry, entry ∈ Settings.folded pairs₁ ↔
        entry ∈ Settings.folded pairs₂) →
      (∃ e, plan text pairs₁ = .error e ∧ plan text pairs₂ = .error e) ∨
      ∃ r₁ r₂, plan text pairs₁ = .ok r₁ ∧ plan text pairs₂ = .ok r₂ ∧
        r₁.same r₂ = true ∧ r₁.hashed = r₂.hashed ∧
        r₂ = { r₁ with settings := r₂.settings } ∧
        ∀ doc scope descendants,
          r₁.apply doc scope descendants = r₂.apply doc scope descendants) ∧
    ∀ (text₁ text₂ : String) (pairs₁ pairs₂ : List (String × String))
      (r₁ r₂ : Rule), plan text₁ pairs₁ = .ok r₁ → plan text₂ pairs₂ = .ok r₂ →
      r₁.same r₂ = true →
      r₁.selector.text = r₂.selector.text ∧ trimmed text₁ = trimmed text₂ ∧
        ∀ entry, entry ∈ Settings.folded pairs₁ ↔
          entry ∈ Settings.folded pairs₂ := by
  constructor
  · intro text pairs₁ pairs₂ hnodup₁ hnodup₂ hsame
    obtain ⟨s, rfl⟩ := Settings.exists_pairs_eq hnodup₁
    obtain ⟨t, rfl⟩ := Settings.exists_pairs_eq hnodup₂
    rw [plan_congr text (Settings.get?_congr hsame)]
    cases hplan : plan text s.pairs with
    | error e => exact .inl ⟨e, rfl, rfl⟩
    | ok r =>
        rw [← (plan_eq_ok_iff.1 hplan).2.1] at hsame
        exact .inr ⟨r, { r with settings := t }, rfl,
          rfl, same_withSettings (Settings.sameMap_iff.2 hsame),
          hashed_withSettings hsame, rfl, fun doc scope descendants =>
          (apply_withSettings r t doc scope descendants).symm⟩
  · intro text₁ text₂ pairs₁ pairs₂ r₁ r₂ h₁ h₂ hsame
    obtain ⟨hcompile₁, rfl, -⟩ := plan_eq_ok_iff.1 h₁
    obtain ⟨hcompile₂, rfl, -⟩ := plan_eq_ok_iff.1 h₂
    simp only [same, Bool.and_eq_true, beq_iff_eq] at hsame
    obtain ⟨⟨⟨⟨⟨⟨⟨htext, hsettings⟩, -⟩, -⟩, -⟩, -⟩, -⟩, -⟩ := hsame
    refine ⟨htext, ?_, Settings.sameMap_iff.1 hsettings⟩
    rw [← Selector.text_of_compile hcompile₁, htext,
      Selector.text_of_compile hcompile₂]

/-- Two settings. -/
def spelled : List (String × String) :=
  [("Binding-Path", "@title"), ("note", "first")]

/-- The same settings in another order, with the case of their names changed. -/
def respelled : List (String × String) :=
  [("NOTE", "first"), ("binding-path", "@title")]

theorem folded_spelled :
    Settings.folded spelled = [("binding-path", "@title"),
      ("note", "first")] := by
      decide +kernel

theorem folded_respelled :
    Settings.folded respelled = [("note", "first"),
      ("binding-path", "@title")] := by
      decide +kernel

theorem exists_plan_spelled : ∃ r, plan "p" spelled = .ok r := by
  obtain ⟨s, hs⟩ : ∃ s : Settings, s.pairs = spelled :=
    Settings.exists_pairs_eq (by rw [folded_spelled]; decide)
  have hget : ∀ name, lowercase name = name →
      s.get? name = [("binding-path", "@title"),
      ("note", "first")].lookup name := by
    intro name hname
    rw [Settings.get?_eq_lookup, hs, folded_spelled, hname]
  have hsource := hget "binding-source" (by decide +kernel)
  have hsourceType := hget "binding-source-type" (by decide +kernel)
  have hdefault := hget "binding-source-default" (by decide +kernel)
  have hnull := hget "binding-null-behavior" (by decide +kernel)
  obtain ⟨r, hplan, -⟩ := exists_plan_of_usual (planSource_of_none hsource)
    (planDefault_of_none hdefault) hsourceType hnull
  exact ⟨r, hs ▸ hplan⟩

theorem plan_folded_respelled :
    ∃ r₁ r₂, plan "p" spelled = .ok r₁ ∧ plan "p" respelled = .ok r₂ ∧
      r₁.same r₂ = true ∧ r₁.hashed = r₂.hashed ∧
      r₂ = { r₁ with settings := r₂.settings } ∧
      (∀ doc scope descendants,
        r₁.apply doc scope descendants = r₂.apply doc scope descendants) ∧
      r₁.selector.text = r₂.selector.text ∧
      ∀ entry, entry ∈ Settings.folded spelled ↔
        entry ∈ Settings.folded respelled := by
  have hsame : ∀ entry, entry ∈ Settings.folded spelled ↔
      entry ∈ Settings.folded respelled := by
    intro entry
    rw [folded_spelled, folded_respelled]
    simp [or_comm]
  obtain ⟨r, hr⟩ := exists_plan_spelled
  rcases plan_folded.1 "p" spelled respelled (by rw [folded_spelled]; decide)
      (by rw [folded_respelled]; decide) hsame with
    ⟨e, herror, -⟩ | ⟨r₁, r₂, h₁, h₂, hequal, hhashed, hderived, happly⟩
  · rw [hr] at herror
    cases herror
  · obtain ⟨htext, -, hback⟩ :=
      plan_folded.2 "p" "p" spelled respelled r₁ r₂ h₁ h₂ hequal
    exact ⟨r₁, r₂, h₁, h₂, hequal, hhashed, hderived, happly, htext, hback⟩

end Rule

end SheetBinding
