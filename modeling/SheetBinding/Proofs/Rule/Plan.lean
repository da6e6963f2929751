import SheetBinding.Proofs.Result
import SheetBinding.Proofs.Settings
import SheetBinding.Rule.Plan

/-!
# What a planned rule is made of

`plan_eq_ok_iff` says all that planning does when it succeeds: the selector and
the settings are the compiled and collected ones, and every other part of the
rule is what the settings give.
-/

namespace SheetBinding

open Text

theorem Selector.text_of_compile {s : String} {selector : Selector}
    (h : Selector.compile s = .ok selector) : selector.text = trimmed s :=
  (Selector.compile_eq_ok_iff.1 h).1

theorem exists_compile_p : ∃ selector, Selector.compile "p" = .ok selector := by
  cases h : Selector.compile "p" with
  | error e =>
      have hok : (Selector.compile "p").toBool = true := by decide +kernel
      rw [h] at hok
      cases hok
  | ok selector => exact ⟨selector, rfl⟩

namespace Rule

theorem plan_eq_ok_iff {text : String} {pairs : List (String × String)}
    {r : Rule} :
    plan text pairs = .ok r ↔
      Selector.compile text = .ok r.selector ∧ r.settings.pairs = pairs ∧
      planSource r.settings = .ok r.source ∧
      planSourceType r.settings r.source = .ok r.sourceType ∧
      planDefault r.settings = .ok r.default ∧
      planNullBehavior r.settings = .ok r.nullBehavior ∧
      r.path = planPath r.settings ∧ r.format = planFormat r.settings := by
  constructor
  · intro h
    unfold plan at h
    obtain ⟨selector, hselector, h⟩ := bind_eq_ok_iff.1 h
    obtain ⟨settings, hsettings, h⟩ := bind_eq_ok_iff.1 h
    obtain ⟨source, hsource, h⟩ := bind_eq_ok_iff.1 h
    obtain ⟨sourceType, hsourceType, h⟩ := bind_eq_ok_iff.1 h
    obtain ⟨default, hdefault, h⟩ := bind_eq_ok_iff.1 h
    obtain ⟨nullBehavior, hnull, h⟩ := bind_eq_ok_iff.1 h
    cases h
    exact ⟨mapError_eq_ok_iff.1 hselector,
      Settings.ofPairs_eq_ok_iff.1 (mapError_eq_ok_iff.1 hsettings), hsource,
      hsourceType, hdefault, hnull, rfl, rfl⟩
  · obtain ⟨selector, settings, source, sourceType, default, path, format,
        nullBehavior⟩ := r
    rintro ⟨hselector, hsettings, hsource, hsourceType, hdefault, hnull,
      hpath, hformat⟩
    dsimp only at hpath hformat
    subst hpath hformat
    have hcompile := mapError_eq_ok_iff (f := RuleError.selector) |>.2 hselector
    have hcollect := mapError_eq_ok_iff (f := RuleError.duplicate) |>.2
      (Settings.ofPairs_eq_ok_iff.2 hsettings)
    rw [plan, hcompile, hcollect]
    simp only [bind, Except.bind, hsource, hsourceType, hdefault, hnull]
    rfl

/-! What no setting asks for is planned as usual. -/

section Usual

variable {s : Settings} {source : Option (List Scalar)}
  {default : Option Scalar}

theorem planSource_of_none (h : s.get? "binding-source" = none) :
    planSource s = .ok none := by
  rw [planSource, h]

theorem planSourceType_of_none (h : s.get? "binding-source-type" = none)
    (source : Option (List Scalar)) :
    planSourceType s source =
      .ok (if source.isSome then .enumerable else .object) := by
  rw [planSourceType, h]

theorem planDefault_of_none (h : s.get? "binding-source-default" = none) :
    planDefault s = .ok none := by
  rw [planDefault, h]

theorem planNullBehavior_of_none (h : s.get? "binding-null-behavior" = none) :
    planNullBehavior s = .ok .ignore := by
  rw [planNullBehavior, h]

/-- Settings whose source and default can be read make a rule, if they leave the
rest as usual. -/
theorem exists_plan_of_usual (hsource : planSource s = .ok source)
    (hdefault : planDefault s = .ok default)
      (hsourceType : s.get? "binding-source-type" = none)
    (hnull : s.get? "binding-null-behavior" = none) :
    ∃ r, plan "p" s.pairs = .ok r ∧ r.source = source ∧
      r.default = default := by
  obtain ⟨selector, hselector⟩ := exists_compile_p
  obtain ⟨sourceType, hkind⟩ : ∃ sourceType, planSourceType s source =
      .ok sourceType := ⟨_, planSourceType_of_none hsourceType source⟩
  refine ⟨⟨selector, s, source, sourceType, default, planPath s, planFormat s,
    .ignore⟩, plan_eq_ok_iff.2 ⟨hselector, rfl, hsource, hkind, hdefault, ?_,
    rfl, rfl⟩, rfl, rfl⟩
  exact planNullBehavior_of_none hnull

end Usual

end Rule

end SheetBinding
