import SheetBinding.Binding.Apply

/-!
# Contexts that are entered and left in nesting order

Which context is current is held in one place, but what to go back to is held in
as many places as there are contexts: each keeps, for every time that it was
entered, what was current then. Nothing in this says that the places fit
together, and if contexts are left in any other order than the reverse of that
in which they were entered, they do not.

Where the order is kept there is one list behind it all, that of the contexts
entered and not yet left, innermost first (`active?`). The whole state can be
written down from this list (`ofActive`): the current context is its head, and
for each place of the list the context there keeps the head of what stands
behind it. A context that is active several times thereby keeps several heads,
in the order in which it will need them. Entering and leaving keep the state of
that form (`step?_ofActive`), and so does every run (`run?_ofActive`). Since the
state is a function of the list, a leave brings back all of what was there
before the entry that it belongs to, once it is known that there is one and that
the list was the same before it (`exists_entry`).
-/

namespace SheetBinding

namespace Contexts

variable {κ : Type}

/-- Entering or leaving a context. -/
inductive Step (κ : Type) where
  | enter (k : κ)
  | leave (k : κ)

/-- What the current context is, and what is applied where, while some contexts
are active, here given from the innermost outward. -/
structure Follows (scopeOf : κ → Nat) (c : Contexts κ) (active : List κ) :
    Prop where
  demand_eq : c.demand =
    match active with
    | k :: _ => .ok k
    | [] => .error .noScope
  rule_apply (r : Rule) (doc : Document) (given : Option Nat)
    (descendants : Bool) : r.apply doc (c.scope? scopeOf given) descendants =
      match given, active with
      | some scope, _ => r.applyAt doc scope descendants
      | Option.none, k :: _ => r.applyAt doc (scopeOf k) descendants
      | Option.none, [] => ⟨doc, [], some .noScope⟩
  sheet_apply (s : Sheet) (doc : Document) (given : Option Nat)
    (descendants : Bool) : s.apply doc (c.scope? scopeOf given) descendants =
      match given, active with
      | some scope, _ => Sheet.applyRules doc scope descendants s.rules
      | Option.none, k :: _ =>
        Sheet.applyRules doc (scopeOf k) descendants s.rules
      | Option.none, [] => ⟨doc, [], some .noScope⟩

variable [DecidableEq κ]

/-- Takes a step. Nothing if a context is left that keeps nothing to go back
to. -/
def step? (c : Contexts κ) : Step κ → Option (Contexts κ)
  | .enter k => some (c.enter k)
  | .leave k => c.leave? k

/-- Enters and leaves objects one after the other. -/
def run? (c : Contexts κ) (steps : List (Step κ)) : Option (Contexts κ) :=
  steps.foldlM step? c

/-! ## The contexts that are active -/

/-- The active contexts after a step. Nothing if a context is left that is not
the innermost. -/
def nest? (active : List κ) : Step κ → Option (List κ)
  | .enter k => some (k :: active)
  | .leave k =>
    match active with
    | [] => Option.none
    | j :: outer => if j = k then some outer else Option.none

/-- The contexts that are entered and not left, from the innermost outward.
Nothing if the steps are out of order. -/
def active? (active : List κ) (steps : List (Step κ)) : Option (List κ) :=
  steps.foldlM nest? active

theorem active?_append {active : List κ} {before after : List (Step κ)} :
    active? active (before ++ after) =
      (active? active before).bind (active? · after) :=
  List.foldlM_append

theorem active?_concat_iff {active after : List κ} {before : List (Step κ)}
    {step : Step κ} :
    active? active (before ++ [step]) = some after ↔
      ∃ mid, active? active before = some mid ∧
        nest? mid step = some after := by
  rw [active?_append, Option.bind_eq_some_iff]
  simp [active?, List.foldlM_cons]

theorem nest?_leave_iff {active after : List κ} {k : κ} :
    nest? active (.leave k) = some after ↔ active = k :: after := by
  cases active with
  | nil => simp [nest?]
  | cons j outer => simp [nest?]

/-- Contexts further out take no part. -/
theorem active?_append_outer {active after : List κ} {steps : List (Step κ)}
    (h : active? active steps = some after) (outer : List κ) :
    active? (active ++ outer) steps = some (after ++ outer) := by
  induction steps generalizing active with
  | nil =>
      cases h
      rfl
  | cons step rest ih =>
      obtain ⟨next, hnext, hrest⟩ := Option.bind_eq_some_iff.1 h
      refine Option.bind_eq_some_iff.2 ⟨next ++ outer, ?_, ih hrest⟩
      cases step with
      | enter k =>
          cases hnext
          rfl
      | leave k =>
          rw [nest?_leave_iff] at hnext ⊢
          rw [hnext]
          rfl

/-- A stretch that leaves all that it enters, between an entry and the leave
that belongs to it, is again such a stretch. -/
theorem active?_surround {inner : List (Step κ)}
    (h : active? [] inner = some []) (k : κ) (active : List κ) :
    active? active (.enter k :: (inner ++ [.leave k])) = some active := by
  have hinner : active? (k :: active) inner = some (k :: active) :=
    active?_append_outer h _
  have hentered : active? active (.enter k :: (inner ++ [.leave k])) =
      active? (k :: active) (inner ++ [.leave k]) := rfl
  rw [hentered, active?_concat_iff]
  exact ⟨k :: active, hinner, nest?_leave_iff.2 rfl⟩

/-- An active context was entered, and all that was entered after it has been
left again. -/
theorem exists_entry {done : List (Step κ)} {k : κ} {outer : List κ}
    (h : active? ([] : List κ) done = some (k :: outer)) :
    ∃ before inner, done = before ++ .enter k :: inner ∧
      active? [] before = some outer ∧
      active? [] inner = some [] := by
  induction hlength : done.length using Nat.strongRecOn generalizing done k
    outer with
  | ind n ih =>
    rcases List.eq_nil_or_concat done with rfl | ⟨front, step, rfl⟩
    · cases h
    rw [List.concat_eq_append] at hlength h ⊢
    rw [List.length_append, List.length_singleton] at hlength
    obtain ⟨active, hfront, hstep⟩ := active?_concat_iff.1 h
    cases step with
    | enter j =>
        cases hstep
        exact ⟨front, [], rfl, hfront, rfl⟩
    | leave j =>
        -- The entry that belongs to this leave ends a front in which `k` is the
        -- innermost again.
        rw [nest?_leave_iff] at hstep
        rw [hstep] at hfront
        obtain ⟨front', inner', rfl, hfront', hinner'⟩ :=
          ih _ (by omega) hfront rfl
        rw [List.length_append, List.length_cons] at hlength
        obtain ⟨before, inner, rfl, hbefore, hinner⟩ :=
          ih _ (by omega) hfront' rfl
        refine ⟨before, inner ++ .enter j :: (inner' ++ [.leave j]),
          by simp, hbefore, ?_⟩
        rw [active?_append, hinner]
        exact active?_surround hinner' j []

/-! ## The state behind it -/

/-- What a context keeps while some contexts are active: for each of its places
among them, the context that is active behind it. -/
def keptBy : List κ → κ → List (Option κ)
  | [], _ => []
  | j :: outer, k =>
    if k = j then outer.head? :: keptBy outer k else keptBy outer k

/-- The state while some contexts are active. -/
def ofActive (active : List κ) : Contexts κ :=
  ⟨active.head?, keptBy active⟩

theorem enter_ofActive (active : List κ) (k : κ) :
    (ofActive active).enter k = ofActive (k :: active) := by
  rw [enter, ofActive, ofActive, List.head?_cons]
  congr 1
  funext other
  rw [keep, keptBy]
  split
  · next h => rw [h]
  · rfl

theorem leave?_ofActive (outer : List κ) (k : κ) :
    (ofActive (k :: outer)).leave? k = some (ofActive outer) := by
  have hkept : (ofActive (k :: outer)).kept k = outer.head? :: keptBy outer k :=
    if_pos rfl
  rw [leave?, hkept]
  dsimp only
  congr 2
  funext other
  rw [keep]
  split
  · next h => rw [h]
  · next h => exact if_neg h

theorem step?_ofActive {active after : List κ} {step : Step κ}
    (h : nest? active step = some after) :
    (ofActive active).step? step = some (ofActive after) := by
  cases step with
  | enter k =>
      cases h
      rw [step?, enter_ofActive]
  | leave k =>
      rw [nest?_leave_iff] at h
      rw [h]
      exact leave?_ofActive after k

theorem run?_ofActive {active after : List κ} {steps : List (Step κ)}
    (h : active? active steps = some after) :
    (ofActive active).run? steps = some (ofActive after) := by
  induction steps generalizing active with
  | nil =>
      cases h
      rfl
  | cons step rest ih =>
      obtain ⟨next, hnext, hrest⟩ := Option.bind_eq_some_iff.1 h
      exact Option.bind_eq_some_iff.2 ⟨ofActive next, step?_ofActive hnext,
        ih hrest⟩

theorem follows_ofActive (scopeOf : κ → Nat) (active : List κ) :
    Follows scopeOf (ofActive active) active where
  demand_eq := by cases active <;> rfl
  rule_apply r doc given descendants := by cases given <;> cases active <;> rfl
  sheet_apply s doc given descendants := by cases given <;> cases active <;> rfl

/-- As long as contexts are left in the reverse of the order in which they are
entered, no leave fails, and after every step the current context is the
innermost of those that are active, and is what is worked in where no scope is
given; there is none just when none is active. Every leave has an entry that it
belongs to, with nothing between them that is not left again, and brings back
the state from before that entry. -/
theorem nesting_discipline (scopeOf : κ → Nat) {steps : List (Step κ)}
    (h : (active? [] steps).isSome = true) :
    (∀ done todo, steps = done ++ todo →
      ∃ active c, active? [] done = some active ∧
      none.run? done = some c ∧ c.Follows scopeOf active ∧
      (c.demand = .error .noScope ↔ active = [])) ∧
    ∀ done k todo, steps = done ++ .leave k :: todo →
      ∃ before inner c, done = before ++ .enter k :: inner ∧
        active? [] inner = some [] ∧
        none.run? before = some c ∧
          none.run? (done ++ [.leave k]) = some c := by
  have hprefix : ∀ done todo, steps = done ++ todo → ∃ active, active? [] done =
      some active ∧ none.run? done = some (ofActive active) := by
    rintro done todo rfl
    rw [active?_append] at h
    obtain ⟨after, hafter⟩ := Option.isSome_iff_exists.1 h
    obtain ⟨active, hactive, -⟩ := Option.bind_eq_some_iff.1 hafter
    exact ⟨active, hactive, run?_ofActive hactive⟩
  constructor
  · intro done todo hsteps
    obtain ⟨active, hactive, hrun⟩ := hprefix done todo hsteps
    refine ⟨active, ofActive active, hactive, hrun,
      follows_ofActive scopeOf active, ?_⟩
    cases active with
    | nil => exact ⟨fun _ => rfl, fun _ => rfl⟩
    | cons k outer => exact ⟨fun h => (nomatch h), fun h => (nomatch h)⟩
  · intro done k todo hsteps
    obtain ⟨after, hafter, hrun⟩ :=
      hprefix (done ++ [.leave k]) todo (by simp [hsteps])
    obtain ⟨active, hactive, hlast⟩ := active?_concat_iff.1 hafter
    rw [nest?_leave_iff.1 hlast] at hactive
    obtain ⟨before, inner, rfl, hbefore, hinner⟩ := exists_entry hactive
    exact ⟨before, inner, ofActive after, rfl, hinner,
      run?_ofActive hbefore, hrun⟩

/-- Two contexts, the first entered again inside the second. -/
def reentered : List (Step Nat) :=
  [.enter 0, .enter 1, .enter 0, .leave 0, .leave 1, .leave 0]

theorem nesting_discipline_reentered :
    (active? [] reentered).isSome = true ∧
    (∃ c, none.run? [.enter 0, .enter 1, .enter 0, .leave 0] = some c ∧
      c.demand = .ok 1 ∧
      ∀ (s : Sheet) doc, s.apply doc (c.scope? (· + 5) Option.none) true =
        Sheet.applyRules doc 6 true s.rules) ∧
    none.run? reentered = some (none : Contexts Nat) := by
  have hnested : (active? [] reentered).isSome = true := rfl
  have hleft : active? [] reentered = some [] := rfl
  obtain ⟨hsteps, -⟩ := nesting_discipline (· + 5) hnested
  obtain ⟨active, c, hactive, hrun, hfollows, -⟩ :=
    hsteps [.enter 0, .enter 1, .enter 0, .leave 0] [.leave 1, .leave 0] rfl
  cases hactive
  exact ⟨hnested, ⟨c, hrun, hfollows.demand_eq, fun s doc =>
    hfollows.sheet_apply s doc Option.none true⟩, run?_ofActive hleft⟩

end Contexts

end SheetBinding
