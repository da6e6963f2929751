import Mathlib.Data.List.TakeWhile
import SheetBinding.Format
import SheetBinding.Proofs.Result

/-!
# The way to a part of a value

The name of a field goes on from the value by steps, to parts after points and
to items between brackets. A way can be written wrongly, and then it is invalid.
If it is not, following it is taking its steps one after the other
(`follow_step`), and the only other fault there can be is that a step leads to
something that is not there (`follow_eq_error_iff`).
-/

namespace SheetBinding.Format

/-- One step of the way to a part of a value. -/
inductive Step where
  | part (name : List Char)
  | item (name : List Char)

namespace Step

/-- A step as a format spells it. -/
def text : Step → List Char
  | part name => '.' :: name
  | item name => '[' :: (name ++ [']'])

/-- Whether a step is well spelled and ends where the rest begins. -/
def EndsBefore (step : Step) (rest : List Char) : Prop :=
  match step with
  | part name => name ≠ [] ∧ (∀ c ∈ name, startsStep c = false) ∧
      ∀ c ∈ rest.head?, startsStep c = true
  | item name => name ≠ [] ∧ ']' ∉ name

/-- Where a step leads to. -/
def take (s : Subject) : Step → Except Fault Subject
  | part name => s.part name
  | item name => numberOf name >>= s.item

end Step

namespace Subject

/-- A subject does not have what a step leads to, and fails for it. -/
def Lacks (s : Subject) (step : Step) (fault : Fault) : Prop :=
  match step with
  | .part name => s.part? (String.ofList name) = none ∧
      fault = s.lack (String.ofList name)
  | .item name => ∃ number, numberOf name = .ok number ∧
      match s with
      | value (.text _) => number = none ∧ fault = .namedItem
      | s => fault = .noItems s.kindName

/-- A way leads on from where there is nothing more. -/
inductive Outruns : Subject → List Char → Fault → Prop
  | here {s : Subject} {step : Step} {rest : List Char} {fault : Fault} :
      step.EndsBefore rest → s.Lacks step fault →
        Outruns s (step.text ++ rest) fault
  | later {s p : Subject} {step : Step} {rest : List Char} {fault : Fault} :
      step.EndsBefore rest → step.take s = .ok p → Outruns p rest fault →
        Outruns s (step.text ++ rest) fault

end Subject

section Ways

variable {s : Subject} {step : Step} {rest way : List Char} {rounds : Nat}
  {fault : Fault}

theorem numberOf_ne_error {cs : List Char} (hfault : fault ≠ .invalid) :
    numberOf cs ≠ .error fault := by
  intro h
  rw [numberOf] at h
  split at h
  · cases h
    exact hfault rfl
  · split at h
    · cases h
    · cases h

theorem Subject.item_eq_error_iff {number : Option Nat}
    (hfault : fault ≠ .invalid) :
    s.item number = .error fault ↔
      match s with
      | value (.text _) => number = none ∧ fault = .namedItem
      | s => fault = .noItems s.kindName := by
  match s, number with
  | value (.text t), none => simp [item, eq_comm]
  | value (.text t), some n =>
      rw [item]
      cases t.toList[n]? <;> simp [hfault.symm]
  | value (.int32 _), _ | value (.int64 _), _ | value
      (.decimal _), _ | value .null, _
  | whole _, _ => simp [item, eq_comm]

theorem Step.take_eq_error_iff (hfault : fault ≠ .invalid) :
    step.take s = .error fault ↔ s.Lacks step fault := by
  cases step with
  | part name =>
      rw [take, Subject.part, Subject.Lacks]
      cases s.part? (String.ofList name) <;> simp [eq_comm]
  | item name =>
      rw [take, bind_eq_error_iff, or_iff_right (numberOf_ne_error hfault)]
      exact exists_congr fun number =>
        and_congr_right fun _ => Subject.item_eq_error_iff hfault

theorem takeWhile_of_head? (h : ∀ c ∈ rest.head?, startsStep c = true) :
    rest.takeWhile (fun c => !startsStep c) = [] ∧
      rest.dropWhile (fun c => !startsStep c) = rest := by
  cases rest with
  | nil => exact ⟨rfl, rfl⟩
  | cons c more =>
      have hc : startsStep c = true := h c rfl
      simp [hc]

theorem follow_step (h : step.EndsBefore rest) :
    follow (rounds + 1) s (step.text ++ rest) =
      step.take s >>= fun p => follow rounds p rest := by
  cases step with
  | part name =>
      obtain ⟨hname, hplain, hrest⟩ := h
      have hall : ∀ c ∈ name, (!startsStep c) = true := fun c hc => by
        rw [hplain c hc]; rfl
      obtain ⟨htake, hdrop⟩ := takeWhile_of_head? hrest
      show follow (rounds + 1) s ('.' :: (name ++ rest)) = _
      rw [follow, if_pos (beq_self_eq_true _)]
      simp only [List.takeWhile_append_of_pos hall,
        List.dropWhile_append_of_pos hall, htake, hdrop, List.append_nil,
        List.isEmpty_iff, hname, if_false, Step.take]
      cases s.part name <;> rfl
  | item name =>
      obtain ⟨hname, hplain⟩ := h
      have hall : ∀ c ∈ name, (c != ']') = true := fun c hc => by
        rw [bne_iff_ne]
        rintro rfl
        exact hplain hc
      have htext : (Step.item name).text ++ rest =
          '[' :: (name ++ ']' :: rest) := by
        simp [Step.text]
      rw [htext, follow, if_neg (by decide), if_pos (beq_self_eq_true _)]
      simp only [List.takeWhile_append_of_pos hall,
        List.dropWhile_append_of_pos hall, List.takeWhile_cons,
        List.dropWhile_cons, bne_self_eq_false, Bool.false_eq_true, if_false,
        List.append_nil, List.isEmpty_iff, hname, Step.take]
      cases numberOf name with
      | error fault => rfl
      | ok number =>
          cases hitem : s.item number <;> simp [bind, Except.bind, hitem]

theorem exists_part_step
    (hname : rest.takeWhile (fun c => !startsStep c) ≠ []) :
    ∃ step after, '.' :: rest = Step.text step ++ after ∧
      step.EndsBefore after := by
  refine ⟨.part (rest.takeWhile fun c => !startsStep c), rest.dropWhile fun c =>
    !startsStep c, ?_, hname, fun c hc => ?_, fun c hc => ?_⟩
  · rw [Step.text, List.cons_append, List.takeWhile_append_dropWhile]
  · simpa using List.mem_takeWhile_imp hc
  · have hhead := List.head?_dropWhile_not (fun c => !startsStep c) rest
    rw [Option.mem_def.1 hc] at hhead
    simpa using hhead

theorem exists_item_step {c : Char} {after : List Char}
    (hname : rest.takeWhile (· != ']') ≠ [])
    (hafter : rest.dropWhile (· != ']') = c :: after) :
    ∃ step after, '[' :: rest = Step.text step ++ after ∧
      step.EndsBefore after := by
  have hclose : c = ']' := by
    have hhead := List.head?_dropWhile_not (· != ']') rest
    rw [hafter] at hhead
    simpa using hhead
  subst hclose
  refine ⟨.item (rest.takeWhile (· != ']')), after, ?_, hname, fun hmem => ?_⟩
  · rw [Step.text, List.cons_append, List.append_assoc, List.singleton_append,
      ← hafter, List.takeWhile_append_dropWhile]
  · have hne := List.mem_takeWhile_imp hmem
    simp at hne

/-- A way begins with a step, unless it is at its end or invalid. -/
theorem exists_step (hway : way ≠ []) :
    (∃ step rest, way = Step.text step ++ rest ∧ step.EndsBefore rest) ∨
      ∀ rounds s, follow (rounds + 1) s way = .error .invalid := by
  obtain ⟨c, rest, rfl⟩ := List.exists_cons_of_ne_nil hway
  by_cases hdot : c = '.'
  · subst hdot
    by_cases hname : rest.takeWhile (fun d => !startsStep d) = []
    · refine .inr fun rounds s => ?_
      rw [follow, if_pos (beq_self_eq_true _)]
      simp [hname]
    · exact .inl (exists_part_step hname)
  by_cases hopen : c = '['
  · subst hopen
    by_cases hname : rest.takeWhile (· != ']') = []
    · refine .inr fun rounds s => ?_
      rw [follow, if_neg (by decide), if_pos (beq_self_eq_true _)]
      cases hafter : rest.dropWhile (· != ']') <;> simp [hname]
    cases hafter : rest.dropWhile (· != ']') with
    | nil =>
        refine .inr fun rounds s => ?_
        rw [follow, if_neg (by decide), if_pos (beq_self_eq_true _)]
        simp [hafter]
    | cons d after => exact .inl (exists_item_step hname hafter)
  · refine .inr fun rounds s => ?_
    rw [follow, if_neg (by simpa using hdot), if_neg (by simpa using hopen)]

theorem Step.length_lt (step : Step) (rest : List Char) :
    rest.length < (step.text ++ rest).length := by
  have htext : 0 < step.text.length := by cases step <;> simp [text]
  rw [List.length_append]
  omega

/-- Following a way fails otherwise than for being invalid just when the way
leads on from where there is nothing more. -/
theorem follow_eq_error_iff (hrounds : way.length ≤ rounds)
    (hfault : fault ≠ .invalid) :
    follow rounds s way = .error fault ↔ s.Outruns way fault := by
  constructor
  · intro h
    induction rounds generalizing s way with
    | zero => cases h
    | succ rounds ih =>
        by_cases hway : way = []
        · subst hway
          cases h
        rcases exists_step hway with ⟨step, rest, rfl, hends⟩ | hinvalid
        · rw [follow_step hends, bind_eq_error_iff] at h
          rcases h with hstep | ⟨p, hstep, hrest⟩
          · exact .here hends ((Step.take_eq_error_iff hfault).1 hstep)
          · have := step.length_lt rest
            exact .later hends hstep (ih (by omega) hrest)
        · rw [hinvalid] at h
          cases h
          exact absurd rfl hfault
  · intro h
    induction h generalizing rounds with
    | @here s step rest _ hends hlacks =>
        have := step.length_lt rest
        obtain ⟨fewer, rfl⟩ : ∃ fewer, rounds = fewer + 1 :=
          Nat.exists_eq_add_one.2 (by omega)
        rw [follow_step hends, (Step.take_eq_error_iff hfault).2 hlacks]
        rfl
    | @later s p step rest _ hends hstep _ ih =>
        have := step.length_lt rest
        obtain ⟨fewer, rfl⟩ : ∃ fewer, rounds = fewer + 1 :=
          Nat.exists_eq_add_one.2 (by omega)
        rw [follow_step hends, hstep]
        exact ih (by omega) hfault

theorem Subject.Outruns.ne_invalid (h : s.Outruns way fault) :
    fault ≠ .invalid := by
  induction h with
  | later _ _ _ ih => exact ih
  | @here s step rest fault hends hlacks =>
      rintro rfl
      cases step with
      | part name => exact s.lack_ne_invalid _ hlacks.2.symm
      | item name =>
          obtain ⟨number, -, h⟩ := hlacks
          split at h
          · cases h.2
          · cases h

end Ways

end SheetBinding.Format
