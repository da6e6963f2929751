import Mathlib.Tactic.Common
import SheetBinding.Format

/-!
# Templates from left to right

A template is read from left to right and never looked back at. What has been
taken as a field is a field whatever follows it (`exists_taken_takeField?`), and
so a front that expands for itself expands in the same way in front of anything
(`expandWith_append`). That makes the place of a fault a matter of the front
before it. A template fails with a fault that is not its own just when there is
a field that fails with it and all that stands before the field expands
(`expandWith_eq_error_iff`).
-/

namespace SheetBinding.Format

/-! ## What is taken -/

/-- The first character of a name is read without those behind it. -/
theorem takeName?_cons (b : Bool) (c : Char) :
    (∀ more, takeName? b (c :: more) = none) ∨
      (∀ more, takeName? b (c :: more) = some ([], c, more)) ∨
      ∃ inner, ∀ more,
        takeName? b (c :: more) =
          (takeName? inner more).map fun r => (c :: r.1, r.2) := by
  by_cases hb : b = true
  · exact .inr (.inr ⟨_, fun more => by rw [takeName?, if_pos hb]⟩)
  by_cases hopen : (c == '{') = true
  · exact .inl fun more => by rw [takeName?, if_neg hb, if_pos hopen]
  by_cases hstop : (c == '}' || c == ':' || c == '!') = true
  · exact .inr (.inl fun more => by rw [takeName?, if_neg hb, if_neg hopen,
      if_pos hstop])
  · exact .inr (.inr ⟨_, fun more => by
      rw [takeName?, if_neg hb, if_neg hopen, if_neg hstop]⟩)

theorem exists_taken_takeName? {b : Bool} {cs name left : List Char}
    {stop : Char} (h : takeName? b cs = some (name, stop, left)) :
    ∃ taken, cs = taken ++ left ∧
      ∀ more, takeName? b (taken ++ more) = some (name, stop, more) := by
  induction cs generalizing b name with
  | nil => cases h
  | cons c rest ih =>
      rcases takeName?_cons b c with hnone | hstop | ⟨inner, hlater⟩
      · rw [hnone] at h
        cases h
      · rw [hstop] at h
        cases h
        exact ⟨[stop], rfl, hstop⟩
      · rw [hlater, Option.map_eq_some_iff] at h
        obtain ⟨⟨short, s, l⟩, hrest, he⟩ := h
        cases he
        obtain ⟨taken, rfl, htaken⟩ := ih hrest
        refine ⟨c :: taken, rfl, fun more => ?_⟩
        rw [List.cons_append, hlater, htaken]
        rfl

theorem exists_taken_takeSpec? {depth : Nat} {cs spec left : List Char}
    (h : takeSpec? depth cs = some (spec, left)) :
    ∃ taken, cs = taken ++ left ∧
      ∀ more, takeSpec? depth (taken ++ more) = some (spec, more) := by
  induction cs generalizing depth spec with
  | nil => cases h
  | cons c rest ih =>
      rw [takeSpec?] at h
      split at h
      · next hclose =>
          cases h
          refine ⟨[c], rfl, fun more => ?_⟩
          rw [List.cons_append, List.nil_append, takeSpec?, if_pos hclose]
      · next hclose =>
          obtain ⟨⟨short, l⟩, hrest, he⟩ := Option.map_eq_some_iff.1 h
          cases he
          obtain ⟨taken, rfl, htaken⟩ := ih hrest
          refine ⟨c :: taken, rfl, fun more => ?_⟩
          rw [List.cons_append, takeSpec?, if_neg hclose]
          dsimp only
          rw [htaken]
          rfl

theorem exists_taken_takeTail? {name cs left : List Char} {stop : Char}
    {f : Field} (h : takeTail? name stop cs = some (f, left)) :
    ∃ taken, cs = taken ++ left ∧
      ∀ more, takeTail? name stop (taken ++ more) = some (f, more) := by
  unfold takeTail? at h ⊢
  split at h
  · next hclose =>
      cases h
      exact ⟨[], rfl, fun more => by rw [if_pos hclose, List.nil_append]⟩
  · next hclose =>
      split at h
      · next hcolon =>
          obtain ⟨⟨spec, l⟩, hspec, he⟩ := Option.map_eq_some_iff.1 h
          cases he
          obtain ⟨taken, rfl, htaken⟩ := exists_taken_takeSpec? hspec
          refine ⟨taken, rfl, fun more => ?_⟩
          rw [if_neg hclose, if_pos hcolon, htaken]
          rfl
      · next hcolon =>
          split at h
          · next c l =>
              cases h
              refine ⟨[c, '}'], rfl, fun more => ?_⟩
              rw [if_neg hclose, if_neg hcolon]
              rfl
          · next c l =>
              obtain ⟨⟨spec, l⟩, hspec, he⟩ := Option.map_eq_some_iff.1 h
              cases he
              obtain ⟨taken, rfl, htaken⟩ := exists_taken_takeSpec? hspec
              refine ⟨c :: ':' :: taken, rfl, fun more => ?_⟩
              rw [if_neg hclose, if_neg hcolon]
              show (takeSpec? 0 (taken ++ more)).map _ = _
              rw [htaken]
              rfl
          · cases h

/-- A field is what it is whatever follows. -/
theorem exists_taken_takeField? {cs left : List Char} {f : Field}
    (h : takeField? cs = some (f, left)) :
    ∃ taken, cs = taken ++ left ∧
      ∀ more, takeField? (taken ++ more) = some (f, more) := by
  rw [takeField?] at h
  split at h
  · cases h
  · next name stop rest hname =>
      obtain ⟨taken, rfl, htaken⟩ := exists_taken_takeName? hname
      obtain ⟨tail, rfl, htail⟩ := exists_taken_takeTail? h
      refine ⟨taken ++ tail, (List.append_assoc ..).symm, fun more => ?_⟩
      rw [takeField?, List.append_assoc, htaken]
      exact htail more

/-! ## One step of an expansion -/

namespace Expansion

@[simp] theorem after_ok (before cs : List Char) (numbering : Numbering) :
    after before (.ok (cs, numbering)) = .ok (before ++ cs, numbering) := rfl

@[simp] theorem after_error (before : List Char) (fault : Fault) :
    after before (.error fault) = .error fault := rfl

@[simp] theorem after_nil (e : Expansion) : e.after [] = e := by
  cases e <;> rfl

@[simp] theorem after_after (first second : List Char) (e : Expansion) :
    (e.after second).after first = e.after (first ++ second) := by
  cases e with
  | error fault => rfl
  | ok r => simp [after, Except.map]

theorem after_eq_error_iff {before : List Char} {e : Expansion}
    {fault : Fault} :
    e.after before = .error fault ↔ e = .error fault := by
  cases e <;> simp [after, Except.map]

theorem exists_of_after_eq_ok {before text : List Char} {e : Expansion}
    {numbering : Numbering} (h : e.after before = .ok (text, numbering)) :
    ∃ cs, e = .ok (cs, numbering) ∧ text = before ++ cs := by
  cases e with
  | error fault => cases h
  | ok r =>
      cases h
      exact ⟨r.1, rfl, rfl⟩

end Expansion

section Expand

variable {expandSpec : Numbering → List Char → Expansion} {value : Scalar}
  {numbering : Numbering} {rest left : List Char} {f : Field}

theorem expandWith_open :
    expandWith expandSpec value numbering ('{' :: '{' :: rest) =
      (expandWith expandSpec value numbering rest).after ['{'] := by
  rw [expandWith]

theorem expandWith_close :
    expandWith expandSpec value numbering ('}' :: '}' :: rest) =
      (expandWith expandSpec value numbering rest).after ['}'] := by
  rw [expandWith]

theorem expandWith_plain {c : Char} (hopen : c ≠ '{') (hclose : c ≠ '}') :
    expandWith expandSpec value numbering (c :: rest) =
      (expandWith expandSpec value numbering rest).after [c] := by
  rw [expandWith]
  · rw [if_neg (by simpa using hopen), if_neg (by simpa using hclose)]
  · rintro _ rfl
    exact absurd rfl hopen
  · rintro _ rfl
    exact absurd rfl hclose

theorem takeField?_open : takeField? ('{' :: rest) = none := by
  rw [takeField?, takeName?]
  rfl

theorem expandWith_field (h : takeField? rest = some (f, left)) :
    expandWith expandSpec value numbering ('{' :: rest) =
      match expandField expandSpec value numbering f with
      | .error fault => .error fault
      | .ok (text, numbering) =>
          (expandWith expandSpec value numbering left).after text := by
  rw [expandWith]
  · rw [if_pos (beq_self_eq_true _)]
    split
    · next hnone => cases h.symm.trans hnone
    · next hsome =>
        cases h.symm.trans hsome
        rfl
  · rintro more - rfl
    cases takeField?_open.symm.trans h
  · rintro _ hclose
    cases hclose

theorem expandWith_unfinished (h : takeField? rest = none)
    (hopen : ∀ more, rest ≠ '{' :: more) :
    expandWith expandSpec value numbering ('{' :: rest) = .error .invalid := by
  rw [expandWith]
  · rw [if_pos (beq_self_eq_true _)]
    split
    · rfl
    · next hsome => cases h.symm.trans hsome
  · exact fun more _ => hopen more
  · rintro _ hclose
    cases hclose

theorem expandWith_unopened (h : ∀ more, rest ≠ '}' :: more) :
    expandWith expandSpec value numbering ('}' :: rest) = .error .invalid := by
  rw [expandWith]
  · rfl
  · rintro _ hopen
    cases hopen
  · exact fun more _ => h more

end Expand

/-- How a template is read from its front, up to the end or to a brace that no
expansion gets over: a field at a time, or characters that are written in the
same way whatever follows. -/
inductive Front : List Char → Prop
  | nil : Front []
  | copied {spelled written rest : List Char} :
      (∀ expandSpec value numbering more,
        expandWith expandSpec value numbering (spelled ++ more) =
          (expandWith expandSpec value numbering more).after written) →
        Front rest → Front (spelled ++ rest)
  | field {rest left : List Char} {f : Field} :
      takeField? rest = some (f, left) → Front left → Front ('{' :: rest)
  | broken {cs : List Char} :
      (∀ expandSpec value numbering,
        expandWith expandSpec value numbering cs = .error .invalid) → Front cs

theorem front (cs : List Char) : Front cs := by
  match cs with
  | [] => exact .nil
  | c :: rest =>
      by_cases hopen : c = '{'
      · subst hopen
        cases htake : takeField? rest with
        | some r =>
            have := length_lt_of_takeField? htake
            exact .field htake (front r.2)
        | none =>
            by_cases hdoubled : ∃ more, rest = '{' :: more
            · obtain ⟨more, hmore⟩ := hdoubled
              have : more.length < rest.length := by simp [hmore]
              rw [hmore]
              show Front (['{', '{'] ++ more)
              exact .copied (fun _ _ _ _ => expandWith_open) (front more)
            · exact .broken fun _ _ _ =>
                expandWith_unfinished htake fun more h => hdoubled ⟨more, h⟩
      by_cases hclose : c = '}'
      · subst hclose
        by_cases hdoubled : ∃ more, rest = '}' :: more
        · obtain ⟨more, hmore⟩ := hdoubled
          have : more.length < rest.length := by simp [hmore]
          rw [hmore]
          show Front (['}', '}'] ++ more)
          exact .copied (fun _ _ _ _ => expandWith_close) (front more)
        · exact .broken fun _ _ _ => expandWith_unopened fun more h =>
            hdoubled ⟨more, h⟩
      · show Front ([c] ++ rest)
        exact .copied (fun _ _ _ _ => expandWith_plain hopen hclose)
          (front rest)
termination_by cs.length
decreasing_by
  all_goals
    simp only [List.length_cons] at *
    omega

/-! ## Fronts that expand -/

section Fronts

variable {expandSpec : Numbering → List Char → Expansion} {value : Scalar}
  {numbering reached : Numbering} {before cs text : List Char} {fault : Fault}

/-- What has been expanded is not looked at again. -/
theorem expandWith_append
    (h : expandWith expandSpec value numbering before = .ok (text, reached))
    (more : List Char) :
    expandWith expandSpec value numbering (before ++ more) =
      (expandWith expandSpec value reached more).after text := by
  induction front before generalizing numbering text with
  | nil =>
      rw [expandWith_nil] at h
      cases h
      rw [List.nil_append, Expansion.after_nil]
  | copied hcopied _ ih =>
      rw [hcopied] at h
      obtain ⟨cs, hcs, rfl⟩ := Expansion.exists_of_after_eq_ok h
      rw [List.append_assoc, hcopied, ih hcs, Expansion.after_after]
  | @field _ left f htake _ ih =>
      obtain ⟨taken, rfl, htaken⟩ := exists_taken_takeField? htake
      rw [expandWith_field htake] at h
      rw [List.cons_append, List.append_assoc,
        expandWith_field (htaken (left ++ more))]
      split at h
      · cases h
      · next written numbered hfield =>
          obtain ⟨cs, hcs, rfl⟩ := Expansion.exists_of_after_eq_ok h
          rw [ih hcs, Expansion.after_after]
  | broken hbroken =>
      rw [hbroken] at h
      cases h

/-- A field is read when the expansion of a template comes to it, which is when
all that stands before it expands. -/
def Reaches (expandSpec : Numbering → List Char → Expansion) (value : Scalar)
    (numbering : Numbering) (cs : List Char) (reached : Numbering)
      (f : Field) : Prop :=
  ∃ before rest left text, cs = before ++ '{' :: rest ∧
    takeField? rest = some (f, left) ∧
    expandWith expandSpec value numbering before = .ok (text, reached)

theorem Reaches.after {rest : List Char} {f : Field} {start : Numbering}
    (h : Reaches expandSpec value numbering rest reached f) (front : List Char)
    (hfront : ∀ more, expandWith expandSpec value start (front ++ more) =
      (expandWith expandSpec value numbering more).after text) :
    Reaches expandSpec value start (front ++ rest) reached f := by
  obtain ⟨before, tail, left, cs, rfl, htake, hbefore⟩ := h
  refine ⟨front ++ before, tail, left, text ++ cs, (List.append_assoc ..).symm,
    htake, ?_⟩
  rw [hfront, hbefore, Expansion.after_ok]

/-- A template fails with a fault other than that it is invalid just when a
field that is reached fails with it. -/
theorem expandWith_eq_error_iff (hfault : fault ≠ .invalid) :
    expandWith expandSpec value numbering cs = .error fault ↔
      ∃ reached f, Reaches expandSpec value numbering cs reached f ∧
        expandField expandSpec value reached f = .error fault := by
  constructor
  · intro h
    induction front cs generalizing numbering with
    | nil =>
        rw [expandWith_nil] at h
        cases h
    | @copied spelled _ _ hcopied _ ih =>
        rw [hcopied, Expansion.after_eq_error_iff] at h
        obtain ⟨reached, f, hreaches, hfield⟩ := ih h
        exact ⟨reached, f, hreaches.after spelled (hcopied _ _ _), hfield⟩
    | @field rest left f htake _ ih =>
        rw [expandWith_field htake] at h
        split at h
        · next hfield =>
            exact ⟨numbering, f, ⟨[], rest, left, [], rfl, htake,
              expandWith_nil⟩, hfield.trans h⟩
        · next written numbered hfield =>
            rw [Expansion.after_eq_error_iff] at h
            obtain ⟨reached, g, hreaches, hg⟩ := ih h
            obtain ⟨taken, rfl, htaken⟩ := exists_taken_takeField? htake
            have hfront : ∀ more,
                expandWith expandSpec value numbering ('{' :: taken ++ more) =
                (expandWith expandSpec value numbered more).after written :=
              fun more => by
              rw [List.cons_append, expandWith_field (htaken more), hfield]
            exact ⟨reached, g, hreaches.after ('{' :: taken) hfront, hg⟩
    | broken hbroken =>
        rw [hbroken] at h
        cases h
        exact absurd rfl hfault
  · intro h
    obtain ⟨reached, f, ⟨before, rest, left, text, rfl, htake, hbefore⟩,
        hfield⟩ := h
    rw [expandWith_append hbefore, expandWith_field htake, hfield]
    rfl

end Fronts

end SheetBinding.Format
