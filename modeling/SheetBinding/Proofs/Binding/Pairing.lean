import SheetBinding.Binding.Apply

/-!
# Which element is bound to what, and what the log says of it

Binding goes through items and elements side by side, and both may be over
first. What is called for at a position is said here by the position alone
(`call?`): the element there, with the item there or else with the default. The
list of pairs is the list of these calls (`getElem?_pairUp`), so it has no gap,
leaves no element out and takes none twice, and it ends at the first position
where there is no element or nothing to bind to it (`length_pairUp`).

The calls are made one after the other, each in the state that the one before it
left, as long as none of them fails (`Calls`). The number that comes back is the
number of calls. It does not tell whether it was the items or the elements that
were over, or whether the default has helped out, and the log is written from
it; `pairing_accounted` says that the log tells nonetheless what was left over,
on which side, and how much.
-/

namespace SheetBinding

section Pairs

variable {α β : Type} {default : Option α}

/-- What is called for at a position: the element there, with the item there or
else the default. -/
def call? (default : Option α) (items : List α) (elements : List β) (i : Nat) :
    Option (α × β) :=
  elements[i]?.bind fun e => (items[i]?.or default).map fun item => (item, e)

theorem getElem?_pairUp (items : List α) (elements : List β) (i : Nat) :
    (pairUp default items elements)[i]? = call? default items elements i := by
  induction elements generalizing items i with
  | nil => simp [pairUp, call?]
  | cons e rest ih =>
      cases items with
      | cons item items =>
          rw [pairUp]
          cases i with
          | zero => rfl
          | succ i => rw [List.getElem?_cons_succ, ih, call?, call?]; rfl
      | nil =>
          cases default with
          | none => simp [pairUp, call?]
          | some d =>
              rw [pairUp]
              cases i with
              | zero => rfl
              | succ i => rw [List.getElem?_cons_succ, ih, call?, call?]; rfl

/-- With a default there is a call for every element, and without one as long as
there are items. -/
theorem length_pairUp (items : List α) (elements : List β) :
    (pairUp default items elements).length =
      if default.isSome then elements.length
        else min items.length elements.length := by
  induction elements generalizing items with
  | nil => simp [pairUp]
  | cons e rest ih =>
      cases items with
      | cons item items =>
          rw [pairUp, List.length_cons, ih, List.length_cons, List.length_cons]
          split
          · rfl
          · exact (Nat.add_min_add_right _ _ 1).symm
      | nil =>
          cases default with
          | none => simp [pairUp]
          | some d => rw [pairUp, List.length_cons, ih, List.length_cons]; rfl

end Pairs

section Calls

variable {σ ε π : Type} {binder : σ → π → σ × Option ε} {s t : σ}

/-- Calls that are made one after the other without a failure, from one state to
another. -/
inductive Calls (binder : σ → π → σ × Option ε) : σ → List π → σ → Prop where
  | nil (s : σ) : Calls binder s [] s
  | cons {s t u : σ} {p : π} {rest : List π} :
      binder s p = (t, none) → Calls binder t rest u →
        Calls binder s (p :: rest) u

/-- Calls up to one that fails, and the state that this one left. -/
def CallsFailing (binder : σ → π → σ × Option ε) (s : σ) (calls : List π)
    (t : σ) (e : ε) : Prop :=
  ∃ done p rest u, calls = done ++ p :: rest ∧ Calls binder s done u ∧
    binder u p = (t, some e)

theorem bindPairs_eq_ok_iff {calls : List π} {count n : Nat} :
    bindPairs binder count s calls = (t, .ok n) ↔
      Calls binder s calls t ∧ n = count + calls.length := by
  induction calls generalizing s count with
  | nil =>
      rw [bindPairs, Prod.mk.injEq, Except.ok.injEq]
      constructor
      · rintro ⟨rfl, rfl⟩
        exact ⟨.nil s, rfl⟩
      · rintro ⟨h, rfl⟩
        cases h
        exact ⟨rfl, rfl⟩
  | cons p rest ih =>
      have hlength : count + (p :: rest).length = count + 1 + rest.length := by
        rw [List.length_cons]
        omega
      rw [bindPairs, hlength]
      rcases hp : binder s p with ⟨u, _ | e⟩
      · dsimp only
        rw [ih]
        constructor
        · rintro ⟨h, hn⟩
          exact ⟨.cons hp h, hn⟩
        · rintro ⟨h, hn⟩
          cases h with
          | cons hcall h =>
              cases hp.symm.trans hcall
              exact ⟨h, hn⟩
      · constructor
        · intro h
          cases h
        · rintro ⟨h, -⟩
          cases h with
          | cons hcall h => cases hp.symm.trans hcall

theorem bindPairs_eq_error_iff {calls : List π} {count : Nat} {e : ε} :
    bindPairs binder count s calls = (t, .error e) ↔
      CallsFailing binder s calls t e := by
  induction calls generalizing s count with
  | nil => simp [bindPairs, CallsFailing]
  | cons p rest ih =>
      rw [bindPairs]
      rcases hp : binder s p with ⟨u, _ | f⟩
      · dsimp only
        rw [ih]
        constructor
        · rintro ⟨done, q, more, v, rfl, hdone, hq⟩
          exact ⟨p :: done, q, more, v, rfl, .cons hp hdone, hq⟩
        · rintro ⟨done, q, more, v, heq, hdone, hq⟩
          cases hdone with
          | nil =>
              cases heq
              cases hp.symm.trans hq
          | cons hcall hdone =>
              cases heq
              cases hp.symm.trans hcall
              exact ⟨_, q, more, v, rfl, hdone, hq⟩
      · constructor
        · intro h
          cases h
          exact ⟨[], p, rest, s, rfl, .nil s, hp⟩
        · rintro ⟨done, q, more, v, heq, hdone, hq⟩
          cases hdone with
          | nil =>
              cases heq
              cases hp.symm.trans hq
              rfl
          | cons hcall hdone =>
              cases heq
              cases hp.symm.trans hcall

end Calls

/-! ## The log -/

/-- The entries of a log that are of one level. -/
def atLevel (level : LogLevel) (log : List Event) : List Event :=
  log.filter (·.level == level)

section Log

variable {α β : Type} (selector : String) (default : Option α) (items : List α)
  (elements : List β)

/-- The number of calls tells what is left over on which side. -/
theorem bindingLog_pairUp :
    bindingLog selector items.length elements.length
      (pairUp default items elements).length =
      .bound selector (pairUp default items elements).length ::
        if default = none ∧ items.length < elements.length then
          [.unbound selector (elements.length - items.length)]
        else if elements.length < items.length then
          [.dropped selector (items.length - elements.length)]
        else [] := by
  rw [bindingLog, length_pairUp]
  cases default with
  | none =>
      simp only [Option.isSome_none, Bool.false_eq_true, if_false, true_and]
      rcases Nat.lt_or_ge items.length elements.length with h | h
      · rw [Nat.min_eq_left (Nat.le_of_lt h), if_pos h, if_pos h]
      · rw [Nat.min_eq_right h, if_neg (Nat.lt_irrefl _),
          if_neg (Nat.not_lt.2 h)]
  | some d => simp

/-- Elements left over are told as information, items left over and the number
of calls only for debugging. -/
theorem atLevel_bindingLog_pairUp :
    (atLevel .info (bindingLog selector items.length elements.length
        (pairUp default items elements).length) =
      if default = none ∧ items.length < elements.length then
        [.unbound selector (elements.length - items.length)] else []) ∧
    (atLevel .debug (bindingLog selector items.length elements.length
        (pairUp default items elements).length) =
      .bound selector (pairUp default items elements).length ::
        if elements.length < items.length then
          [.dropped selector (items.length - elements.length)] else []) := by
  rw [bindingLog_pairUp]
  split
  · next h => rw [if_neg (Nat.lt_asymm h.2)]; exact ⟨rfl, rfl⟩
  · split <;> exact ⟨rfl, rfl⟩

end Log

/-! ## Items and elements accounted for -/

theorem Rule.bindItems_of_calls {r : Rule} {doc after : Document}
    {elements : List Nat}
    (h : Calls r.bindItem doc (pairUp r.default r.items elements) after) :
    r.bindItems doc elements =
      ⟨after, bindingLog r.selector.text r.items.length elements.length
        (pairUp r.default r.items elements).length, none⟩ := by
  have hrun : bindTo r.bindItem doc r.items elements r.default =
      (after, .ok (pairUp r.default r.items elements).length) :=
    bindPairs_eq_ok_iff.2 ⟨h, (Nat.zero_add _).symm⟩
  rw [bindItems, hrun]

/-- A binder is called for each element in order, with the item at the same
position or else the default, up to the first element without either. If no call
fails their number is given back, and the first that does fail is the last one
made. A rule that binds its items so, none of its calls failing, tells what it
has left over: elements if it has no default and there are more of them, items
if there are more of those, never both, and no source is the same as an empty
one. -/
theorem pairing_accounted {σ ε α β : Type} (binder : σ → α × β → σ × Option ε)
    (s : σ) (items : List α) (elements : List β) (default : Option α) (r : Rule)
    (doc : Document) (matched : List Nat) :
    (∃ calls : List (α × β), (∀ i, calls[i]? = call? default items elements i) ∧
      (∀ t n, bindTo binder s items elements default = (t, .ok n) ↔
        Calls binder s calls t ∧ n = calls.length) ∧
      ∀ t e, bindTo binder s items elements default = (t, .error e) ↔
        CallsFailing binder s calls t e) ∧
    (∃ calls : List (Scalar × Nat),
      (∀ i, calls[i]? = call? r.default r.items matched i) ∧
      ∀ after, Calls r.bindItem doc calls after → ∃ log,
        r.bindItems doc matched = ⟨after, log, none⟩ ∧
        (atLevel .info log =
          if r.default = none ∧ r.items.length < matched.length then
            [.unbound r.selector.text (matched.length - r.items.length)]
          else []) ∧
        (atLevel .debug log = .bound r.selector.text calls.length ::
          if matched.length < r.items.length then
            [.dropped r.selector.text (r.items.length - matched.length)]
          else []) ∧
        ∀ k l, .unbound r.selector.text k ∈ log →
          .dropped r.selector.text l ∉ log) ∧
    ({ r with source := none } : Rule).bindItems doc matched =
      ({ r with source := some [] } : Rule).bindItems doc matched := by
  refine ⟨⟨pairUp default items elements, getElem?_pairUp items elements,
    fun t n => ?_, fun t e => bindPairs_eq_error_iff⟩, ⟨pairUp r.default r.items
    matched, getElem?_pairUp r.items matched, fun after hcalls => ?_⟩, rfl⟩
  · rw [bindTo, bindPairs_eq_ok_iff, Nat.zero_add]
  · obtain ⟨hinfo, hdebug⟩ :=
      atLevel_bindingLog_pairUp r.selector.text r.default r.items matched
    refine ⟨_, r.bindItems_of_calls hcalls, hinfo, hdebug,
      fun k l hunbound hdropped => ?_⟩
    rw [bindingLog_pairUp] at hunbound hdropped
    split at hunbound
    · next h => rw [if_pos h] at hdropped; simp at hdropped
    · split at hunbound <;> simp at hunbound

/-- A list with two empty items. -/
def emptyList : Document :=
  { root := .element 0 "ul" [] "" [.element 1 "li" [] "" [] "",
      .element 2 "li" [] "" [] ""] ""
    detached := []
    nextId := 3 }

/-- A rule with one text for all items of lists. -/
def itemRule : Rule :=
  { selector := ⟨"li", [.single (.mk (.named "li") [])]⟩
    source := some [.text "a"]
    sourceType := .enumerable }

/-- One text for two items: it goes to the first, the call does not fail, and
the second is told to be left over. -/
theorem pairing_accounted_emptyList :
    ∃ after log,
      Calls itemRule.bindItem emptyList [(.text "a", 1)] after ∧
      itemRule.bindItems emptyList [1, 2] = ⟨after, log, none⟩ ∧
      atLevel .info log = [.unbound "li" 1] ∧
      atLevel .debug log = [.bound "li" 1] := by
  obtain ⟨-, ⟨calls, hcalls, hall⟩, -⟩ := pairing_accounted
    itemRule.bindItem emptyList itemRule.items [1, 2] itemRule.default itemRule
    emptyList [1, 2]
  have hone : calls = [(.text "a", 1)] := by
    refine List.ext_getElem? fun i => ?_
    rw [hcalls]
    match i with
    | 0 => rfl
    | 1 => rfl
    | i + 2 => simp [call?]
  subst hone
  have hmade : Calls itemRule.bindItem emptyList [(.text "a", 1)]
      (emptyList.bind 1 none (.text "a") none .ignore).document :=
    .cons rfl (.nil _)
  obtain ⟨log, hlog, hinfo, hdebug, -⟩ := hall _ hmade
  exact ⟨_, log, hmade, hlog, hinfo, hdebug⟩

end SheetBinding
