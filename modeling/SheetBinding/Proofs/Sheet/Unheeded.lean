import SheetBinding.Command
import SheetBinding.Proofs.Sheet.RoundTrip

/-!
# Settings without a meaning

A rule keeps all its settings, and only the names in a short table mean
anything. Three places know that table: planning, which looks its names up; the
check that reports every other name; and the command that lists them as ignored.
What is said here is that the three agree, and that a name which is reported is
ignored in earnest.

Planning is the place where something could go wrong, and there one fact is
enough: settings that answer alike for the names of the table make the same plan
(`plan_congr_known`). Leaving the other names out changes no such answer
(`get?_known`), so every rule of a sheet that was read can be made again without
them (`planAll_withoutUnheeded`). All that is done with the rule afterwards is
done with its plan, the listing and the checks of the names themselves excepted.
-/

namespace SheetBinding

open Text

/-! ## The settings that are heeded -/

namespace Settings

/-- The settings that have a meaning, as they were written. -/
def known (s : Settings) : Settings :=
  ⟨s.pairs.filter fun pair => decide (lowercase pair.1 ∈ knownSettings),
    s.unique.sublist (List.filter_sublist.map _)⟩

/-- A name with a meaning has the value that it had. -/
theorem get?_known (s : Settings) {name : String}
    (h : lowercase name ∈ knownSettings) :
    s.known.get? name = s.get? name := by
  refine Option.ext fun value => ?_
  rw [get?_eq_some_iff, get?_eq_some_iff, folded, folded, List.mem_map,
    List.mem_map]
  refine exists_congr fun pair => and_congr_left fun heq => ?_
  have hknown : lowercase pair.1 ∈ knownSettings := (Prod.mk.inj heq).1 ▸ h
  rw [known, List.mem_filter, and_iff_left (decide_eq_true hknown)]

theorem lowercase_mem_knownSettings :
    ∀ name ∈ knownSettings, lowercase name ∈ knownSettings := by
  decide +kernel

theorem has_known (s : Settings) {name : String} (h : name ∈ knownSettings) :
    s.known.has name = s.has name := by
  rw [has_eq_isSome, has_eq_isSome,
    s.get?_known (lowercase_mem_knownSettings name h)]

end Settings

namespace Rule

/-- A rule that has kept only the settings that have a meaning. -/
def withoutUnheeded (r : Rule) : Rule :=
  { r with settings := r.settings.known }

/-- The names of the settings that have no meaning, as they were written and in
that order. -/
def unheeded (r : Rule) : List String :=
  (r.settings.pairs.filter fun pair =>
    decide (lowercase pair.1 ∉ knownSettings)).map Prod.fst

theorem unknownNames_eq (r : Rule) : Sheet.unknownNames r = r.unheeded := by
  rw [Sheet.unknownNames, Settings.names, List.filter_map, unheeded]
  simp [Function.comp_def, isKnownSetting, List.contains_eq_mem]

theorem unheeded_withoutUnheeded (r : Rule) :
    r.withoutUnheeded.unheeded = [] := by
  rw [unheeded, List.map_eq_nil_iff, List.filter_eq_nil_iff]
  intro pair hpair
  have hknown := of_decide_eq_true (List.mem_filter.1 hpair).2
  simpa using hknown

theorem plan_withoutUnheeded {r : Rule} {text : String}
    (h : plan text r.settings.pairs = .ok r) :
    plan text r.withoutUnheeded.settings.pairs = .ok r.withoutUnheeded := by
  have hget : ∀ name ∈ knownSettings, r.settings.get? name =
      r.settings.known.get? name := fun name hname => (r.settings.get?_known
    (Settings.lowercase_mem_knownSettings name hname)).symm
  rw [withoutUnheeded, plan_congr_known text hget, h]
  rfl

theorem applyAt_withoutUnheeded (r : Rule) (doc : Document) (scope : Nat)
    (descendants : Bool) :
    r.withoutUnheeded.applyAt doc scope descendants =
      r.applyAt doc scope descendants := rfl

/-- The listing of a rule ends with the names that are ignored, and shows
nothing else of them. -/
theorem planLines_eq (r : Rule) :
    Command.planLines r = Command.planLines r.withoutUnheeded ++
      if r.unheeded = [] then []
        else ["  ignored:     " ++ ", ".intercalate r.unheeded] := by
  simp only [Command.planLines, unknownNames_eq, unheeded_withoutUnheeded,
    if_true, List.append_nil, List.isEmpty_iff]
  rfl

end Rule

/-! ## Sheets -/

namespace Sheet

/-- Blocks make up the rules that they are the blocks of, if each makes up its
own. -/
theorem planAll_map_block_iff {rules : List Rule} :
    planAll (rules.map Rule.block) = .ok rules ↔
      ∀ r ∈ rules, Rule.plan r.selector.text r.settings.pairs = .ok r := by
  induction rules with
  | nil => simp [planAll]
  | cons r rest ih =>
      rw [List.map_cons, planAll, List.forall_mem_cons, ← ih]
      simp only [Rule.block]
      cases hplan : Rule.plan r.selector.text r.settings.pairs with
      | error e => simp
      | ok made =>
          rw [map_eq_ok_iff]
          simp only [List.cons.injEq, Except.ok.injEq]
          constructor
          · rintro ⟨others, hothers, hr, rfl⟩
            exact ⟨hr, hothers⟩
          · rintro ⟨hr, hrest⟩
            exact ⟨rest, hrest, hr, rfl⟩

/-- The rules of a sheet that was read are made from the blocks that they are
printed as. -/
theorem planAll_block_of_read {text : String} {s : Sheet}
    (h : Sheet.read text = .ok s) :
    planAll (s.rules.map Rule.block) = .ok s.rules := by
  obtain ⟨bs, hbs, hrules⟩ := read_eq_ok_iff.1 h
  have hplain := (Grammar.sheetBlocks_trim_iff.1 hbs).plain
  rw [map_block_of_planAll hrules fun b hb => (hplain b hb).trimmed_selector,
    hrules]

/-- A sheet whose rules have kept only the settings that have a meaning. -/
def withoutUnheeded (s : Sheet) : Sheet :=
  ⟨s.rules.map Rule.withoutUnheeded⟩

theorem planAll_withoutUnheeded {s : Sheet}
    (h : planAll (s.rules.map Rule.block) = .ok s.rules) :
    planAll (s.withoutUnheeded.rules.map Rule.block) =
      .ok s.withoutUnheeded.rules := by
  rw [planAll_map_block_iff] at h ⊢
  intro r' hr'
  obtain ⟨r, hr, rfl⟩ := List.mem_map.1 hr'
  exact Rule.plan_withoutUnheeded (h r hr)

theorem apply_withoutUnheeded (s : Sheet) (doc : Document) (scope : Option Nat)
    (descendants : Bool) :
    s.withoutUnheeded.apply doc scope descendants =
      s.apply doc scope descendants := by
  have hrules : ∀ (rules : List Rule) (doc : Document) (scope : Nat),
      applyRules doc scope descendants (rules.map Rule.withoutUnheeded) =
        applyRules doc scope descendants rules := by
    intro rules
    induction rules with
    | nil => intro doc scope; rfl
    | cons r rest ih =>
        intro doc scope
        rw [List.map_cons, applyRules, applyRules, r.applyAt_withoutUnheeded,
          ih]
  cases scope with
  | none => rfl
  | some scope => exact hrules s.rules doc scope

/-! ## Findings -/

/-- Findings on the rules with some property are the same if neither the
property nor the findings depend on settings without a meaning. -/
theorem filter_withoutUnheeded {flagged : Rule → Bool}
    {finding : Rule → Diagnostic}
    (hflagged : ∀ r, flagged r.withoutUnheeded = flagged r)
    (hfinding : ∀ r, finding r.withoutUnheeded = finding r) (s : Sheet) :
    (s.withoutUnheeded.rules.filter flagged).map finding =
      (s.rules.filter flagged).map finding := by
  rw [withoutUnheeded, List.filter_map, List.map_map]
  simp only [Function.comp_def, hflagged, hfinding]

theorem checkObjectMode_withoutUnheeded (s : Sheet) :
    s.withoutUnheeded.checkObjectMode = s.checkObjectMode :=
  filter_withoutUnheeded (fun _ => rfl) (fun _ => rfl) s

theorem checkDefaultWithoutSource_withoutUnheeded (s : Sheet) :
    s.withoutUnheeded.checkDefaultWithoutSource =
      s.checkDefaultWithoutSource := by
  refine filter_withoutUnheeded (fun r => ?_) (fun _ => rfl) s
  rw [Rule.withoutUnheeded, r.settings.has_known (by decide),
    r.settings.has_known (by decide)]

theorem checkFormatWithoutPath_withoutUnheeded (s : Sheet) :
    s.withoutUnheeded.checkFormatWithoutPath = s.checkFormatWithoutPath := by
  refine filter_withoutUnheeded (fun r => ?_) (fun _ => rfl) s
  rw [Rule.withoutUnheeded, r.settings.has_known (by decide),
    r.settings.has_known (by decide)]

theorem checkUnknownSettings_withoutUnheeded (s : Sheet) :
    s.withoutUnheeded.checkUnknownSettings = [] := by
  rw [checkUnknownSettings, List.flatMap_eq_nil_iff]
  intro r' hr'
  obtain ⟨r, -, rfl⟩ := List.mem_map.1 hr'
  rw [Rule.unknownNames_eq, r.unheeded_withoutUnheeded, List.map_nil]

theorem map_checkUnknownSettings (s : Sheet) :
    (s.checkUnknownSettings.map fun d => (d.selector, d.setting)) =
      s.rules.flatMap fun r => r.unheeded.map fun name =>
        (some r.selector.text, some name) := by
  rw [checkUnknownSettings, List.map_flatMap]
  simp only [List.map_map, Function.comp_def, Rule.unknownNames_eq]

/-- The settings that are reported as unknown are those whose name is in lower
case none of the names that have a meaning, and they are the ones that are
listed as ignored. And they are ignored: of a sheet that was read, every rule
can be made again without them, with the same plan, and the sheet of these rules
does to every document what the sheet does, and all other findings on it are the
same. -/
theorem unheeded_inert {text : String} {s : Sheet}
    (h : Sheet.read text = .ok s) :
    (s.checkUnknownSettings.map fun d => (d.selector, d.setting)) =
      (s.rules.flatMap fun r => r.unheeded.map fun name =>
        (some r.selector.text, some name)) ∧
    ∃ reduced : Sheet,
      planAll (s.rules.map fun r => ⟨r.selector.text,
          r.settings.pairs.filter fun pair =>
            decide (lowercase pair.1 ∈ knownSettings)⟩) =
        .ok reduced.rules ∧
      List.Forall₂ (fun r r' => r' = { r with settings := r'.settings } ∧
          (∀ doc scope descendants, r'.applyAt doc scope descendants =
            r.applyAt doc scope descendants) ∧
          Command.planLines r = Command.planLines r' ++
            if r.unheeded = [] then []
            else ["  ignored:     " ++ ", ".intercalate r.unheeded])
        s.rules reduced.rules ∧
      (∀ doc scope descendants,
        reduced.apply doc scope descendants = s.apply doc scope descendants) ∧
      reduced.checkObjectMode = s.checkObjectMode ∧
      reduced.checkDefaultWithoutSource = s.checkDefaultWithoutSource ∧
      reduced.checkFormatWithoutPath = s.checkFormatWithoutPath ∧
      reduced.checkUnknownSettings = [] := by
  refine ⟨s.map_checkUnknownSettings, s.withoutUnheeded, ?_, ?_,
    s.apply_withoutUnheeded, s.checkObjectMode_withoutUnheeded,
    s.checkDefaultWithoutSource_withoutUnheeded,
    s.checkFormatWithoutPath_withoutUnheeded,
    s.checkUnknownSettings_withoutUnheeded⟩
  · rw [← planAll_withoutUnheeded (planAll_block_of_read h), withoutUnheeded,
      List.map_map]
    rfl
  · rw [withoutUnheeded, List.forall₂_map_right_iff, List.forall₂_same]
    exact fun r _ => ⟨rfl, r.applyAt_withoutUnheeded, r.planLines_eq⟩

/-- A sheet with a note beside its settings, and with a name in other
letters. -/
def notedSheet : String :=
  "p\x7bNote:1;BINDING-PATH:@title;\x7dq\x7bnote:2;\x7d"

theorem unheeded_inert_noted :
    ∃ s reduced : Sheet, Sheet.read notedSheet = .ok s ∧
      (s.checkUnknownSettings.map fun d => (d.selector, d.setting)) =
        [(some "p", some "Note"), (some "q", some "note")] ∧
      planAll (s.rules.map fun r => ⟨r.selector.text,
          r.settings.pairs.filter fun pair =>
            decide (lowercase pair.1 ∈ knownSettings)⟩) =
        .ok reduced.rules ∧
      (∀ doc scope descendants,
        reduced.apply doc scope descendants = s.apply doc scope descendants) ∧
      reduced.checkUnknownSettings = [] := by
  have hnames : (Sheet.read notedSheet).toOption.map (fun s =>
      s.checkUnknownSettings.map fun d => (d.selector, d.setting)) =
        some [(some "p", some "Note"), (some "q", some "note")] := by
        decide +kernel
  cases h : Sheet.read notedSheet with
  | error e => rw [h] at hnames; cases hnames
  | ok s =>
      rw [h] at hnames
      obtain ⟨-, reduced, hplan, -, happly, -, -, -, hnone⟩ := unheeded_inert h
      exact ⟨s, reduced, rfl, Option.some.inj hnames, hplan, happly, hnone⟩

end Sheet

end SheetBinding
