import SheetBinding.Binding.Write
import SheetBinding.Proofs.Format.Template
import SheetBinding.Proofs.Format.Way

/-!
# Formats that ask too much of a value

A format can be wrong in itself or for its value, and then it is invalid. It can
also be well formed and ask something of the value that the value does not have,
and then it fails in a way of its own. There are three things that are too much.
The way to a part of the value can lead on from where there is nothing more
(`Field.Outruns`); a specification can ask for the character of a number that is
no character's; and null has no specification at all (`Subject.Refuses`).

Two things are left out of account (`Fault.isLeftOut`), and nothing is said of
formats that come to one of them. A way can lead to what can be done with the
value, and a specification for a decimal can hold a number beyond all limits.

A template fails in this way if the first field that cannot be expanded does. A
field may hold a template in its specification, whose fields count in the same
way, and there it ends: templates are nested in two levels at most
(`TemplateOverreaches`, by induction on the levels).
-/

namespace SheetBinding.Format

/-! ## Specifications -/

/-- Whether a specification asks for the character of a number, and for nothing
that a character cannot have. -/
def Spec.AsksCharacter (s : Spec) : Prop :=
  s.kind = 'c' ∧ s.precision = none ∧ s.dropsNegativeZero = false ∧
    s.sign = none ∧ s.alternate = false

namespace Subject

/-- The number that is written by a specification for whole numbers. -/
def whole? : Subject → Option Int
  | value (.int32 v) => some v
  | value (.int64 v) => some v
  | whole v => some v
  | _ => none

/-- A subject does not go with what a specification asks of it, and fails for
it. -/
def Refuses (s : Subject) (spec : List Char) (fault : Fault) : Prop :=
  (s = value .null ∧ spec ≠ [] ∧ fault = .nullFormat) ∨
    (∃ v sp, s.whole? = some v ∧ Spec.ofText? .right 'd' spec = some sp ∧
      sp.AsksCharacter ∧ (v < 0 ∨ (maxCharacter : Int) < v) ∧
      fault = .noCharacter) ∨
    ∃ d, s = value (.decimal d) ∧ DecimalSpec.exceeds spec = true ∧
      fault = .beyondLimits

end Subject

section Specifications

variable {s : Subject} {spec : List Char} {v : Int} {fault : Fault}

theorem Spec.renderWhole_eq_error_iff {sp : Spec} (hfault : fault ≠ .invalid) :
    sp.renderWhole v = .error fault ↔
      sp.AsksCharacter ∧ (v < 0 ∨ (maxCharacter : Int) < v) ∧
        fault = .noCharacter := by
  constructor
  · intro h
    rw [renderWhole] at h
    split at h
    · split at h
      · cases h
        exact absurd rfl hfault
      · cases h
    split at h
    · cases h
      exact absurd rfl hfault
    next hplain =>
      simp only [Bool.or_eq_true, not_or, Bool.not_eq_true,
        Option.isSome_eq_false_iff, Option.isNone_iff_eq_none] at hplain
      split at h
      · next hc =>
          rw [renderCharacter] at h
          split at h
          · cases h
            exact absurd rfl hfault
          next hbare =>
            simp only [Bool.or_eq_true, not_or, Bool.not_eq_true,
              Option.isSome_eq_false_iff, Option.isNone_iff_eq_none] at hbare
            split at h
            · next hv =>
                cases h
                exact ⟨⟨eq_of_beq hc, hplain.1.2, hplain.2, hbare⟩,
                  by simpa using hv, rfl⟩
            · cases h
      · cases h
  · rintro ⟨⟨hc, hprecision, hzero, hsign, halternate⟩, hv, rfl⟩
    rw [renderWhole, hc, hprecision, hzero, if_neg (by decide),
      if_neg (by decide), if_pos (by decide), renderCharacter, hsign,
      halternate, if_neg (by decide), if_pos (by simpa using hv)]

theorem Subject.renderWhole_eq_error_iff (hfault : fault ≠ .invalid) :
    renderWhole v spec = .error fault ↔
      ∃ sp, Spec.ofText? .right 'd' spec = some sp ∧ sp.AsksCharacter ∧
        (v < 0 ∨ (maxCharacter : Int) < v) ∧ fault = .noCharacter := by
  rw [renderWhole]
  cases Spec.ofText? .right 'd' spec with
  | none => simp [hfault.symm]
  | some sp => simp [Spec.renderWhole_eq_error_iff hfault]

theorem Subject.orInvalid_ne_error {rendered : Option (List Char)}
    (hfault : fault ≠ .invalid) :
    orInvalid rendered ≠ .error fault := by
  cases rendered with
  | none =>
      intro h
      cases h
      exact hfault rfl
  | some cs => exact nofun

theorem Subject.convert_ne_error {conversion : Option Char}
    (hfault : fault ≠ .invalid) :
    s.convert conversion ≠ .error fault := by
  intro h
  cases conversion with
  | none => cases h
  | some c =>
      rw [convert] at h
      repeat' split at h
      all_goals cases h
      exact hfault rfl

/-- A subject fails by specification otherwise than for an invalid one just when
it refuses. -/
theorem Subject.render_eq_error_iff (hfault : fault ≠ .invalid) :
    s.render spec = .error fault ↔ s.Refuses spec fault := by
  by_cases hspec : spec = []
  · subst hspec
    have hplain : ∀ sp, Spec.ofText? .right 'd' [] = some sp →
        ¬ sp.AsksCharacter := by
      intro sp hsp hask
      cases hsp
      exact absurd hask.1 (by decide)
    constructor
    · intro h
      cases h
    · rintro (⟨-, hne, -⟩ | ⟨v, sp, -, hsp, hask, -⟩ | ⟨d, -, hexceeds, -⟩)
      · exact absurd rfl hne
      · exact absurd hask (hplain sp hsp)
      · exact absurd hexceeds (by decide)
  · unfold render Refuses
    rw [if_neg (by simpa using hspec)]
    match s with
    | value (.text t) => simp [orInvalid_ne_error hfault, whole?]
    | value (.decimal d) =>
        by_cases hexceeds : DecimalSpec.exceeds spec = true
        · simp [hexceeds, whole?, @eq_comm _ fault]
        · simp [hexceeds, orInvalid_ne_error hfault, whole?]
    | value .null => simp [whole?, hspec, @eq_comm _ fault]
    | value (.int32 v) | value (.int64 v) | whole v =>
        simp [whole?, renderWhole_eq_error_iff hfault]

end Specifications

/-! ## Fields -/

/-- The value that a field stands for, converted as the field asks. -/
def Field.subject (f : Field) (value : Scalar) (numbering : Numbering) :
    Except Fault (Subject × Numbering) := do
  let (subject, numbering) ← subjectOf value numbering f.name
  return (← subject.convert f.conversion, numbering)

/-- The specification of a field once it has been expanded, if it holds
fields. -/
def Field.specText (expandSpec : Numbering → List Char → Expansion) (f : Field)
    (numbering : Numbering) : Expansion :=
  if f.spec.contains '{' then expandSpec numbering f.spec
  else .ok (f.spec, numbering)

/-- The name of a field leads on from where there is nothing more. -/
def Field.Outruns (f : Field) (value : Scalar) (numbering : Numbering)
    (fault : Fault) : Prop :=
  ∃ counted,
    fieldNumber numbering (f.name.takeWhile fun c => !startsStep c) =
        .ok (0, counted) ∧
      (Subject.value value).Outruns
        (f.name.dropWhile fun c => !startsStep c) fault

section Fields

variable {expandSpec : Numbering → List Char → Expansion} {value : Scalar}
  {numbering : Numbering} {f : Field} {fault : Fault}

theorem fieldNumber_ne_error {name : List Char} (hfault : fault ≠ .invalid) :
    fieldNumber numbering name ≠ .error fault := by
  intro h
  unfold fieldNumber at h
  split at h
  · split at h
    · cases h
    · cases h
    · cases h
      exact hfault rfl
  · rw [bind_eq_error_iff, or_iff_right (numberOf_ne_error hfault)] at h
    obtain ⟨number, -, h⟩ := h
    split at h
    · cases h
      exact hfault rfl
    · cases h
      exact hfault rfl
    · cases h

theorem subjectOf_eq_error_iff (hfault : fault ≠ .invalid) :
    subjectOf value numbering f.name = .error fault ↔
      f.Outruns value numbering fault := by
  rw [subjectOf, bind_eq_error_iff, or_iff_right (fieldNumber_ne_error hfault),
    Field.Outruns]
  constructor
  · rintro ⟨⟨number, counted⟩, hnumber, h⟩
    dsimp only at h
    by_cases hzero : number = 0
    · subst hzero
      rw [if_neg (by decide), bind_eq_error_iff,
        follow_eq_error_iff (Nat.le_refl _) hfault] at h
      exact ⟨counted, hnumber,
        h.resolve_right (by rintro ⟨_, -, hpure⟩; cases hpure)⟩
    · rw [if_pos (by simpa using hzero)] at h
      cases h
      exact absurd rfl hfault
  · rintro ⟨counted, hnumber, houtruns⟩
    refine ⟨(0, counted), hnumber, ?_⟩
    dsimp only
    rw [if_neg (by decide), (follow_eq_error_iff (Nat.le_refl _) hfault).2
      houtruns]
    rfl

theorem Field.subject_eq_error_iff (hfault : fault ≠ .invalid) :
    f.subject value numbering = .error fault ↔
      f.Outruns value numbering fault := by
  rw [subject, bind_eq_error_iff, subjectOf_eq_error_iff hfault]
  refine or_iff_left ?_
  rintro ⟨⟨s, counted⟩, -, h⟩
  rw [bind_eq_error_iff, or_iff_right (Subject.convert_ne_error hfault)] at h
  obtain ⟨converted, -, h⟩ := h
  cases h

theorem expandField_eq (expandSpec : Numbering → List Char → Expansion)
    (value : Scalar) (numbering : Numbering) (f : Field) :
    expandField expandSpec value numbering f =
      (f.subject value numbering >>= fun r => f.specText expandSpec r.2 >>=
        fun spec =>
        (r.1.render spec.1).map fun cs => (cs, spec.2)) := by
  have hrender (s : Subject) (spec : List Char) (counted : Numbering) :
      (s.render spec >>= fun cs => pure (cs, counted)) =
        (s.render spec).map fun cs => (cs, counted) := by
    cases s.render spec <;> rfl
  rw [expandField, Field.subject]
  cases subjectOf value numbering f.name with
  | error fault => rfl
  | ok r =>
      obtain ⟨s, counted⟩ := r
      show (s.convert f.conversion >>= _) = (s.convert f.conversion >>= _) >>= _
      cases s.convert f.conversion with
      | error fault => rfl
      | ok converted =>
          show (if f.spec.contains '{' then _ else _) =
            f.specText expandSpec counted >>= _
          rw [Field.specText]
          split
          · cases expandSpec counted f.spec with
            | error fault => rfl
            | ok spec => exact hrender converted spec.1 spec.2
          · exact hrender converted f.spec counted

/-- A field fails otherwise than for being invalid if its name leads too far, if
a field in its specification fails so, or if what it stands for refuses the
specification. -/
theorem expandField_eq_error_iff (hfault : fault ≠ .invalid) :
    expandField expandSpec value numbering f = .error fault ↔
      f.Outruns value numbering fault ∨
        ∃ s counted, f.subject value numbering = .ok (s, counted) ∧
          (f.spec.contains '{' = true ∧
            expandSpec counted f.spec = .error fault ∨
            ∃ spec after, f.specText expandSpec counted = .ok (spec, after) ∧
              s.Refuses spec fault) := by
  rw [expandField_eq, bind_eq_error_iff, Field.subject_eq_error_iff hfault,
    Prod.exists]
  refine or_congr_right (exists_congr fun s => exists_congr fun counted =>
    and_congr_right fun _ => ?_)
  rw [bind_eq_error_iff, Prod.exists]
  refine or_congr ?_ (exists_congr fun spec => exists_congr fun after =>
    and_congr_right fun _ => ?_)
  · rw [Field.specText]
    cases hspec : f.spec.contains '{' with
    | true => simp
    | false => simp
  · rw [map_eq_error_iff, Subject.render_eq_error_iff hfault]

end Fields

/-! ## Templates -/

/-- Expands templates that are nested so many times at most. -/
def expandTo (value : Scalar) : Nat → Numbering → List Char → Expansion
  | 0 => fun _ _ => .error .invalid
  | depth + 1 => expandWith (expandTo value depth) value

/-- A template nested so many times at most, or a template in one of its fields,
has a field that is reached and asks too much. -/
def TemplateOverreaches (value : Scalar) (fault : Fault) :
    Nat → Numbering → List Char → Prop
  | 0, _, _ => False
  | depth + 1, numbering, cs => ∃ reached f,
    Reaches (expandTo value depth) value numbering cs reached f ∧
      (f.Outruns value reached fault ∨
        ∃ s counted, f.subject value reached = .ok (s, counted) ∧
          (f.spec.contains '{' = true ∧ TemplateOverreaches value fault depth
            counted f.spec ∨ ∃ spec after, f.specText (expandTo value depth)
            counted = .ok (spec, after) ∧ s.Refuses spec fault))

theorem expandTo_eq_error_iff {value : Scalar} {fault : Fault}
    (hfault : fault ≠ .invalid) {depth : Nat} {numbering : Numbering}
    {cs : List Char} :
    expandTo value depth numbering cs = .error fault ↔
      TemplateOverreaches value fault depth numbering cs := by
  induction depth generalizing numbering cs with
  | zero =>
      rw [TemplateOverreaches, iff_false]
      intro h
      cases h
      exact hfault rfl
  | succ depth ih =>
      rw [expandTo, expandWith_eq_error_iff hfault, TemplateOverreaches]
      refine exists_congr fun reached => exists_congr fun f =>
        and_congr_right fun _ => ?_
      simp only [expandField_eq_error_iff hfault, ih]

/-- A format asks more of a value than the value has, and fails for it. -/
def Overreaches (value : Scalar) (format : String) (fault : Fault) : Prop :=
  if format.toList.contains '{' then
    TemplateOverreaches value fault 2 .undecided format.toList
  else (Subject.value value).Refuses format.toList fault

theorem Subject.Refuses.ne_invalid {s : Subject} {spec : List Char}
    {fault : Fault} (h : s.Refuses spec fault) : fault ≠ .invalid := by
  rintro rfl
  rcases h with ⟨-, -, h⟩ | ⟨_, _, -, -, -, -, h⟩ | ⟨_, -, -, h⟩ <;> cases h

theorem TemplateOverreaches.ne_invalid {value : Scalar} {fault : Fault}
    {depth : Nat} {numbering : Numbering} {cs : List Char}
    (h : TemplateOverreaches value fault depth numbering cs) :
    fault ≠ .invalid := by
  induction depth generalizing numbering cs with
  | zero => exact h.elim
  | succ depth ih =>
      obtain ⟨reached, f, -, ⟨_, -, hname⟩ |
          ⟨s, counted, -, ⟨-, hspec⟩ | ⟨_, _, -, hrefuses⟩⟩⟩ := h
      · exact hname.ne_invalid
      · exact ih hspec
      · exact hrefuses.ne_invalid

theorem Overreaches.ne_invalid {value : Scalar} {format : String}
    {fault : Fault} (h : Overreaches value format fault) :
    fault ≠ .invalid := by
  rw [Overreaches] at h
  split at h
  · exact h.ne_invalid
  · exact h.ne_invalid

/-- A value cannot be rendered, for another reason than that the format is
invalid, just when the format asks too much of it. -/
theorem render_eq_error_iff {value : Scalar} {format : String} {fault : Fault}
    (hfault : fault ≠ .invalid) :
    value.render (some format) = .error fault ↔
      Overreaches value format fault := by
  simp only [Scalar.render, Overreaches, map_eq_error_iff]
  split
  · rw [expand, map_eq_error_iff]
    show expandTo value 2 .undecided format.toList = .error fault ↔ _
    exact expandTo_eq_error_iff hfault
  · exact Subject.render_eq_error_iff hfault

/-! ## What becomes of a binding -/

section Binding

variable {value : Scalar} {path : Option String} {place : Target}
  {format : String} {fault : Fault}

end Binding

end SheetBinding.Format
