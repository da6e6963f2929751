import SheetBinding.Command

/-!
# Rules that bind objects

No rule that binds objects can be applied, whatever the document. The checks of
a sheet say so beforehand: of all their findings only those on such rules are
errors, one for each rule (`countOf_error_validate`). Applying the sheet bears
them out. The rule fails when its turn comes, even if it selects nothing, and if
its turn does not come, then because a rule before it has failed
(`failure_applyRules_of_mem`). In the other direction, no other rule fails in
this way (`exists_of_failure_applyRules`).

So a command that finds errors in a sheet and a command that applies it cannot
both succeed.
-/

namespace SheetBinding

/-! ## What the checks count -/

theorem any_isError_iff {ds : List Diagnostic} :
    ds.any (·.isError) = true ↔ 0 < countOf .error ds := by
  rw [countOf, List.countP_pos_iff, List.any_eq_true]
  rfl

namespace Sheet

theorem countOf_error_checkObjectMode (s : Sheet) :
    countOf .error s.checkObjectMode =
      s.rules.countP (·.sourceType == .object) := by
  rw [checkObjectMode, countOf, List.countP_map, List.countP_filter]
  rfl

/-- The other checks find no errors. -/
theorem severity_ne_error {s : Sheet} {d : Diagnostic}
    (h : d ∈ s.checkUnknownSettings ++ (s.checkDefaultWithoutSource ++
      s.checkFormatWithoutPath)) :
    d.severity ≠ .error := by
  rcases List.mem_append.1 h with h | h
  · obtain ⟨r, -, hr⟩ := List.mem_flatMap.1 h
    obtain ⟨name, -, rfl⟩ := List.mem_map.1 hr
    exact (by decide : Severity.warning ≠ .error)
  rcases List.mem_append.1 h with h | h
  · obtain ⟨r, -, rfl⟩ := List.mem_map.1 h
    exact (by decide : Severity.warning ≠ .error)
  · obtain ⟨r, -, rfl⟩ := List.mem_map.1 h
    exact (by decide : Severity.info ≠ .error)

/-- There are as many errors as there are rules that bind objects. -/
theorem countOf_error_validate (s : Sheet) :
    countOf .error (s.validate []) =
      s.rules.countP (·.sourceType == .object) := by
  have hchecks : s.validate [] = s.checkObjectMode ++ (s.checkUnknownSettings ++
      (s.checkDefaultWithoutSource ++ s.checkFormatWithoutPath)) := by
    simp [validate]
  have hothers : countOf .error (s.checkUnknownSettings ++
      (s.checkDefaultWithoutSource ++ s.checkFormatWithoutPath)) = 0 :=
    List.countP_eq_zero.2 fun d hd => by simpa using severity_ne_error hd
  rw [hchecks, countOf, List.countP_append, ← countOf, ← countOf, hothers,
    countOf_error_checkObjectMode, Nat.add_zero]

theorem validateStrictly_eq_error_iff {s : Sheet}
    {extra : List (Sheet → List Diagnostic)} :
    (∃ e, s.validateStrictly extra = .error e) ↔
      0 < countOf .error (s.validate extra) := by
  rw [← any_isError_iff, validateStrictly]
  cases (s.validate extra).any (·.isError) <;> simp

end Sheet

/-! ## What applying does -/

section Applied

variable {doc : Document} {scope : Nat} {descendants : Bool}

/-- A rule that binds objects fails, whatever it selects. -/
theorem Rule.failure_applyAt_ne_none {r : Rule} (h : r.sourceType = .object) :
    (r.applyAt doc scope descendants).failure ≠ none := by
  rw [applyAt]
  cases r.elements? doc scope descendants with
  | none => simp
  | some elements => simp [bindElements, h]

theorem Rule.sourceType_of_failure_applyAt {r : Rule} {selector : String}
    (h : (r.applyAt doc scope descendants).failure =
      some (.objectBinding selector)) :
    r.sourceType = .object := by
  rw [applyAt] at h
  cases he : r.elements? doc scope descendants with
  | none => simp [he] at h
  | some elements =>
      simp only [he, bindElements] at h
      split at h
      · next ho => exact ho
      · rw [bindItems] at h
        split at h
        · cases h
        · cases h
      · cases h

/-- Rules fail as soon as one of them does: either it is reached, or one before
it fails. -/
theorem Sheet.failure_applyRules_of_mem {rules : List Rule} {r : Rule}
    (hr : r ∈ rules)
    (h : ∀ doc, (r.applyAt doc scope descendants).failure ≠ none) :
    (applyRules doc scope descendants rules).failure ≠ none := by
  induction rules generalizing doc with
  | nil => cases hr
  | cons first rest ih =>
      rw [applyRules]
      cases hfirst : (first.applyAt doc scope descendants).failure with
      | some e => simp [hfirst]
      | none =>
          rcases List.mem_cons.1 hr with rfl | hrest
          · exact absurd hfirst (h doc)
          · exact ih hrest

/-- If rules fail, then one of them does, in the same way. -/
theorem Sheet.exists_of_failure_applyRules {rules : List Rule} {e : ApplyError}
    (h : (applyRules doc scope descendants rules).failure = some e) :
    ∃ r ∈ rules, ∃ doc, (r.applyAt doc scope descendants).failure = some e := by
  induction rules generalizing doc with
  | nil => cases h
  | cons first rest ih =>
      rw [applyRules] at h
      cases hfirst : (first.applyAt doc scope descendants).failure with
      | some e' =>
          simp only [hfirst] at h
          cases h
          exact ⟨first, List.mem_cons_self .., doc, hfirst⟩
      | none =>
          simp only [hfirst] at h
          obtain ⟨r, hr, hfails⟩ := ih h
          exact ⟨r, List.mem_cons_of_mem _ hr, hfails⟩

end Applied

namespace Sheet

variable {s : Sheet}

theorem failure_apply_ne_none (h : 0 < countOf .error (s.validate []))
    (doc : Document) (scope : Option Nat) (descendants : Bool) :
    (s.apply doc scope descendants).failure ≠ none := by
  rw [countOf_error_validate, List.countP_pos_iff] at h
  obtain ⟨r, hr, hobject⟩ := h
  cases scope with
  | none => simp [apply]
  | some scope =>
      have hobject : r.sourceType = .object := by simpa using hobject
      exact failure_applyRules_of_mem hr fun doc =>
        Rule.failure_applyAt_ne_none hobject

theorem failure_apply_ne_objectBinding (h : countOf .error (s.validate []) = 0)
    (doc : Document) (scope : Option Nat) (descendants : Bool)
    (selector : String) :
    (s.apply doc scope descendants).failure ≠
      some (.objectBinding selector) := by
  rw [countOf_error_validate, List.countP_eq_zero] at h
  intro hfails
  cases scope with
  | none => cases hfails
  | some scope =>
      obtain ⟨r, hr, doc, hr'⟩ := exists_of_failure_applyRules hfails
      exact h r hr (by simpa using Rule.sourceType_of_failure_applyAt hr')

end Sheet

/-! ## What the command ends with -/

namespace Command

theorem exitCode_loadFailed (log : String) (e : LoadError) :
    (loadFailed log e).exitCode = 1 := by
  rw [loadFailed]
  split <;> rfl

/-- A sheet that cannot be applied to any document is not applied to the one
that is there. -/
theorem exitCode_applySheet {sheet : Sheet}
    (h : ∀ doc scope descendants,
      (sheet.apply doc scope descendants).failure ≠ none)
    (files : Files) (settings : Settings) (log : String)
    (content : List Text.Byte) (output : Option String) :
    (applySheet files settings log sheet content output).exitCode = 1 := by
  unfold applySheet
  split
  · rfl
  · split
    · rfl
    · dsimp only
      split
      · split <;> rfl
      · next hnone => exact absurd hnone (h _ _ _)

/-- A command that fails on every sheet of a file fails on the file. -/
theorem exitCode_withSheet_ne_zero {files : Files} {settings : Settings}
    {path : String} {next : String → Sheet → Report}
    (h : ∀ content s, files.read? path = some content →
      (Sheet.load (.file path content) settings.encoding).result = .ok s →
      ∀ log, (next log s).exitCode ≠ 0) :
    (withSheet files settings path next).exitCode ≠ 0 := by
  unfold withSheet
  split
  · decide
  · next content hcontent =>
      dsimp only
      split
      · rw [exitCode_loadFailed]
        decide
      · next s hs => exact h content s hcontent hs _

/-- A sheet in whose file something is found wanting has errors, if it can be
loaded at all. -/
theorem countOf_error_pos_of_exitCode {files : Files} {settings : Settings}
    {path : String} (h : (runValidate files settings path).exitCode = 1)
    {content : List Text.Byte} {s : Sheet}
    (hcontent : files.read? path = some content)
    (hs : (Sheet.load (.file path content) settings.encoding).result = .ok s) :
    0 < countOf .error (s.validate []) := by
  rw [Nat.pos_iff_ne_zero]
  intro hnone
  simp [runValidate, withSheet, hcontent, hs, hnone] at h

/-- Where something is found wanting in a sheet, it cannot be applied. -/
theorem exitCode_runApply_ne_zero {files : Files} {threshold : LogLevel}
    {encoding sheet : String}
    (h : (runValidate files ⟨threshold, encoding⟩ sheet).exitCode = 1)
    (threshold' : LogLevel) (document : String) (output : Option String) :
    (runApply files ⟨threshold', encoding⟩ sheet document
      output).exitCode ≠ 0 := by
  unfold runApply
  split
  · decide
  · split
    · decide
    · refine exitCode_withSheet_ne_zero fun content s hcontent hs log => ?_
      have herrors := countOf_error_pos_of_exitCode h hcontent hs
      rw [exitCode_applySheet (Sheet.failure_apply_ne_none herrors)]
      decide

/-- A sheet has as many errors as rules that bind objects, and is refused by a
strict check just when it has one. With one it cannot be applied, to whatever
document and in whatever way; with none it may fail when it is applied, but not
for binding objects. So a command line that finds a sheet wanting has no
counterpart that applies it successfully. -/
theorem validate_apply_objectMode :
    (∀ s : Sheet,
      countOf .error (s.validate []) =
        s.rules.countP (·.sourceType == .object) ∧
      ((∃ e, s.validateStrictly [] = .error e) ↔
        0 < countOf .error (s.validate [])) ∧
      ∀ doc scope descendants,
        (0 < countOf .error (s.validate []) →
          (s.apply doc scope descendants).failure ≠ none) ∧
        (countOf .error (s.validate []) = 0 → ∀ selector,
          (s.apply doc scope descendants).failure ≠
            some (.objectBinding selector))) ∧
    ∀ files threshold threshold' encoding sheet document output,
      (run files (.task ⟨threshold, encoding⟩ (.validate sheet))).exitCode = 1 →
      (run files
        (.task ⟨threshold', encoding⟩
          (.apply sheet document output))).exitCode ≠ 0 := by
  constructor
  · intro s
    exact ⟨s.countOf_error_validate, Sheet.validateStrictly_eq_error_iff,
      fun doc scope descendants =>
        ⟨fun h => Sheet.failure_apply_ne_none h doc scope descendants,
          fun h =>
            Sheet.failure_apply_ne_objectBinding h doc scope descendants⟩⟩
  · intro files threshold threshold' encoding sheet document output h
    exact exitCode_runApply_ne_zero h threshold' document output

/-- A sheet with a rule that binds objects, since it has no list, and a
document. -/
def objectFiles : Files :=
  let content (path : String) : String :=
    if path == "sheet" then "p\x7b\x7d" else "<p></p>"
  ⟨fun path => some ((content path).toList.map fun c =>
    Text.Encoding.byte c.toNat), fun _ => false⟩

theorem validate_apply_objectMode_refused :
    (∃ s, Sheet.read "p\x7b\x7d" = .ok s ∧ countOf .error (s.validate []) = 1 ∧
      ∀ doc scope descendants, (s.apply doc scope descendants).failure ≠ none) ∧
    (run objectFiles
      (.task ⟨.warning, "utf-8"⟩ (.validate "sheet"))).exitCode = 1 ∧
    (run objectFiles
      (.task ⟨.warning, "utf-8"⟩
        (.apply "sheet" "document" none))).exitCode ≠ 0 := by
  have hexit : (run objectFiles
      (.task ⟨.warning, "utf-8"⟩ (.validate "sheet"))).exitCode = 1 := by
    decide +kernel
  have hcount : (Sheet.read "p\x7b\x7d").toOption.map
      (fun s => countOf .error (s.validate [])) = some 1 := by
    decide +kernel
  refine ⟨?_, hexit, validate_apply_objectMode.2 _ _ _ _ _ _ _ hexit⟩
  cases hread : Sheet.read "p\x7b\x7d" with
  | error e => rw [hread] at hcount; cases hcount
  | ok s =>
      rw [hread] at hcount
      have hone : countOf .error (s.validate []) = 1 := Option.some.inj hcount
      have hsheet := (validate_apply_objectMode.1 s).2.2
      exact ⟨s, rfl, hone, fun doc scope descendants =>
        (hsheet doc scope descendants).1 (by rw [hone]; decide)⟩

end Command

end SheetBinding
