import SheetBinding.Proofs.Selector.Readers

/-!
# Readers that nest

A pseudo-class may hold compounds and chains, so the readers of these call one
another, in rounds that the number of tokens bounds. They are local all the
same: what they take of some tokens does not depend on the tokens behind it, nor
on rounds to spare, only on that these tokens let them end (`allLocal`). One
step of each reader is followed with all the others local in a round less. So a
chain of a group is spelled by the tokens between two commas alone
(`groupOf?_of_readComplex`).
-/

namespace SheetBinding.Selector

variable {α : Type} {s : Standing} {e : ElementTest} {ts left : List Token}

/-! ## Where a compound and a chain end -/

/-- A compound may end before these tokens. -/
def EndsCompound (s : Standing) (ts : List Token) : Prop :=
  ∀ t ∈ ts.head?, endsCompound s t = true

theorem endsCompound_nil (s : Standing) :
    EndsCompound s [] := fun _ ht => by cases ht

theorem endsCompound_cons {t : Token} :
    EndsCompound s (t :: ts) ↔ endsCompound s t = true := by
  rw [EndsCompound, List.head?_cons]
  exact ⟨fun h => h t rfl, fun h u hu => Option.some_inj.1 hu ▸ h⟩

theorem endsCompound_blanks_append {n : Nat} (h : EndsCompound s ts) :
    EndsCompound s (blanks n ++ ts) := by
  cases n with
  | zero => exact h
  | succ n => exact endsCompound_cons.2 rfl

theorem endsCompound_joined (s : Standing) (c : Combinator) :
    EndsCompound (s.joined c) = EndsCompound s := by
  funext ts
  cases ts with
  | nil => rfl
  | cons t ts => cases t <;> rfl

theorem endsCompound_of_endsChain (h : endsChain s ts = true) :
    EndsCompound s ts := by
  cases ts with
  | nil => exact endsCompound_nil s
  | cons t ts =>
      rw [endsChain, Bool.or_eq_true, Bool.and_eq_true, beq_iff_eq,
        beq_iff_eq] at h
      rw [endsCompound_cons]
      rcases h with rfl | ⟨hnested, rfl⟩
      · rfl
      · rw [endsCompound, hnested]
        rfl

theorem ne_blank_of_endsChain (h : endsChain s ts = true) :
    ts.head? ≠ some .blank := by
  intro he
  obtain ⟨rest, rfl⟩ := List.head?_eq_some_iff.1 he
  rw [endsChain, Bool.or_eq_true, Bool.and_eq_true, beq_iff_eq, beq_iff_eq] at h
  rcases h with h | ⟨-, h⟩ <;> cases h

/-! ## Readers in rounds -/

/-- What a reader gives in some number of rounds it gives for the tokens that it
took, at least `least` of them, whatever follows them that `follow` admits, in
as many rounds as they need. -/
def Local (read : Nat → List Token → Option (α × List Token))
    (least spare : Nat) (follow : List Token → Prop) (rounds : Nat) : Prop :=
  ∀ ⦃ts x left⦄, read rounds ts = some (x, left) →
    ∃ us, ts = us ++ left ∧ least ≤ us.length ∧
      ∀ r, 5 * us.length + spare ≤ r → Takes (read r) follow us x

/-- A pseudo-class has no argument before these tokens. -/
def NoArgument (ts : List Token) : Prop :=
  ts.head? ≠ some (.delim '(')

/-- Every reader is local, in as many rounds as are given. -/
structure AllLocal (rounds : Nat) : Prop where
  compound (s : Standing) :
    Local (fun r => readCompound r s) 1 2 (EndsCompound s) rounds
  conditions (s : Standing) (e : ElementTest) (conditions : List Condition) :
    Local (fun r => readConditions r s e conditions) 0 1 (EndsCompound s) rounds
  pseudo (s : Standing) (e : ElementTest) (name : String) :
    Local (fun r => readPseudo r s e name) 0 1 NoArgument rounds
  alternatives : Local readAlternatives 0 1 (fun _ => True) rounds
  related (s : Standing) :
    Local (fun r => readRelated r s) 0 1 (fun _ => True) rounds
  complex (s : Standing) : Local (fun r => readComplex r s) 1 3 (endsChain s · =
    true) rounds
  chain (s : Standing) (front : Complex) :
    Local (fun r => readChain r s front) 0 3 (endsChain s · = true) rounds

variable {conditions : List Condition} {x : Compound} {rounds : Nat}

/-! ### Conditions -/

theorem readConditions_of_ends (h : EndsCompound s ts) (r : Nat) :
    readConditions (r + 1) s e conditions ts = some (.mk e conditions, ts) := by
  cases ts with
  | nil => rfl
  | cons t ts =>
      rw [readConditions.eq_def]
      dsimp only
      rw [if_pos (endsCompound_cons.1 h)]

/-- What is read where conditions do not end: one of them, or a name that takes
the place of all that was read before it. -/
inductive ReadsCondition (r : Nat) (s : Standing) (e : ElementTest)
    (conditions : List Condition) :
    List Token → ElementTest → List Condition → List Token → Prop
  | hash (name : String) (ts : List Token) :
      ReadsCondition r s e conditions (.hash name :: ts) e
        (conditions ++ [.id name]) ts
  | className (name : String) (ts : List Token) :
      ReadsCondition r s e conditions (.delim '.' :: .ident name :: ts) e
        (conditions ++ [.className name]) ts
  | name (name : String) (ts : List Token) :
      ReadsCondition r s e conditions (.delim '|' :: .ident name :: ts)
        (.ofName s.whole none (some name)) [] ts
  | test {test : AttributeTest} {ts rest : List Token}
      (h : readAttribute ts = some (test, rest)) :
      ReadsCondition r s e conditions (.delim '[' :: ts) e
        (conditions ++ [.attribute test]) rest
  | pseudo {name : String} {condition : Condition} {ts rest : List Token}
      (h : readPseudo r s e name ts = some (condition, rest)) :
      ReadsCondition r s e conditions (.delim ':' :: .ident name :: ts) e
        (conditions ++ [condition]) rest

section Condition

variable {r : Nat} {e' : ElementTest} {conditions' : List Condition}
  {rest : List Token}

theorem ReadsCondition.readConditions_eq
    (h : ReadsCondition r s e conditions ts e' conditions' rest) :
    readConditions (r + 1) s e conditions ts =
      readConditions r s e' conditions' rest := by
  cases h with
  | hash name ts => rfl
  | className name ts =>
      rw [readConditions.eq_def]
      dsimp only
      rw [if_neg (by simp [endsCompound])]
      rfl
  | name name ts =>
      rw [readConditions.eq_def]
      dsimp only
      rw [if_neg (by simp [endsCompound])]
      rfl
  | test h => exact readConditions_attribute h r
  | pseudo h =>
      rw [readConditions.eq_def]
      dsimp only
      rw [if_neg (by simp [endsCompound])]
      simp only [h]

/-- Before the conditions end, one of them is read and the rest behind it. -/
theorem exists_readsCondition (hends : ¬ EndsCompound s ts)
    (h : readConditions (r + 1) s e conditions ts = some (x, left)) :
    ∃ e' conditions' rest, ReadsCondition r s e conditions ts e'
      conditions' rest ∧
      readConditions r s e' conditions' rest = some (x, left) := by
  cases ts with
  | nil => exact absurd (endsCompound_nil s) hends
  | cons t ts =>
      rw [endsCompound_cons] at hends
      rw [readConditions.eq_def] at h
      dsimp only at h
      rw [if_neg hends] at h
      split at h
      · next name => exact ⟨_, _, _, .hash name ts, h⟩
      · next name rest => exact ⟨_, _, _, .className name rest, h⟩
      · next name rest => exact ⟨_, _, _, .name name rest, h⟩
      · split at h
        · cases h
        · next hattribute => exact ⟨_, _, _, .test hattribute, h⟩
      · split at h
        · cases h
        · next hpseudo => exact ⟨_, _, _, .pseudo hpseudo, h⟩
      · cases h

/-- A condition is read again before other tokens. -/
theorem ReadsCondition.again (hlocal : AllLocal rounds)
    (h : ReadsCondition rounds s e conditions ts e' conditions' rest) :
    ∃ us, ts = us ++ rest ∧ 1 ≤ us.length ∧ ∀ tail r, NoArgument tail →
      5 * us.length ≤ r →
      ReadsCondition r s e conditions (us ++ tail) e' conditions' tail := by
  cases h with
  | hash name =>
      exact ⟨[.hash name], rfl, Nat.le_refl 1,
        fun tail _ _ _ => .hash name tail⟩
  | className name =>
      exact ⟨[.delim '.', .ident name], rfl, Nat.le_succ 1,
        fun tail _ _ _ => .className name tail⟩
  | name name =>
      exact ⟨[.delim '|', .ident name], rfl, Nat.le_succ 1,
        fun tail _ _ _ => .name name tail⟩
  | test hattribute =>
      obtain ⟨us, rfl, hagain⟩ := exists_of_readAttribute hattribute
      exact ⟨.delim '[' :: us, rfl, Nat.le_add_left 1 _,
        fun tail _ _ _ => .test (hagain tail)⟩
  | @pseudo name _ _ _ hpseudo =>
      obtain ⟨us, rfl, -, hagain⟩ := hlocal.pseudo s e name hpseudo
      refine ⟨.delim ':' :: .ident name :: us, rfl, Nat.le_add_left 1 _,
        fun tail r htail hr => .pseudo (hagain r ?_ tail htail)⟩
      simp only [List.length_cons] at hr
      omega

end Condition

theorem endsCompound_of_readConditions
    (h : readConditions rounds s e conditions ts = some (x, left)) :
    EndsCompound s left := by
  induction rounds generalizing e conditions ts with
  | zero => cases h
  | succ rounds ih =>
      by_cases hends : EndsCompound s ts
      · rw [readConditions_of_ends hends] at h
        cases h
        exact hends
      · obtain ⟨e', conditions', rest, -, hrest⟩ :=
          exists_readsCondition hends h
        exact ih hrest

theorem noArgument_of_endsCompound (h : EndsCompound s ts) : NoArgument ts := by
  intro he
  have hends := h _ he
  rw [endsCompound] at hends
  simp at hends

/-- No argument stands where conditions are read. -/
theorem noArgument_of_readConditions
    (h : readConditions rounds s e conditions ts = some (x, left)) :
    NoArgument ts := by
  cases rounds with
  | zero => cases h
  | succ rounds =>
      by_cases hends : EndsCompound s ts
      · exact noArgument_of_endsCompound hends
      · obtain ⟨e', conditions', rest, hfirst, -⟩ :=
          exists_readsCondition hends h
        rintro he
        cases hfirst <;> cases he

theorem local_conditions_succ (hlocal : AllLocal rounds) (s : Standing)
    (e : ElementTest) (conditions : List Condition) :
    Local (fun r => readConditions r s e conditions) 0 1 (EndsCompound s)
      (rounds + 1) := by
  intro ts x left h
  by_cases hends : EndsCompound s ts
  · dsimp only at h
    rw [readConditions_of_ends hends] at h
    cases h
    refine ⟨[], rfl, Nat.le_refl 0, fun r hr tail htail => ?_⟩
    obtain ⟨r, rfl⟩ := Nat.exists_eq_add_of_le' hr
    exact readConditions_of_ends htail _
  · obtain ⟨e', conditions', rest, hfirst, hrest⟩ :=
      exists_readsCondition hends h
    obtain ⟨us, rfl, hpos, hfirst'⟩ := hfirst.again hlocal
    obtain ⟨vs, rfl, -, hagain⟩ := hlocal.conditions s e' conditions' hrest
    refine ⟨us ++ vs, (List.append_assoc us vs left).symm, Nat.zero_le _,
      fun r hr tail htail => ?_⟩
    rw [List.length_append] at hr
    obtain ⟨r, rfl⟩ :=
      Nat.exists_eq_add_of_le' (Nat.le_trans (Nat.le_add_left 1 _) hr)
    have hback : NoArgument (vs ++ tail) := by
      cases vs with
      | nil => exact noArgument_of_endsCompound htail
      | cons v vs =>
          have hfront : NoArgument (v :: vs ++ left) :=
            noArgument_of_readConditions hrest
          exact hfront
    dsimp only
    rw [List.append_assoc,
      (hfirst' (vs ++ tail) r hback (by omega)).readConditions_eq]
    exact hagain r (by omega) tail htail

/-! ### Compounds -/

theorem readCompound_unnamed {t : Token} {rest : List Token}
    (h : readElement s (skipBlanks ts) = some (none, t :: rest))
      (hends : ¬ endsCompound s t = true)
    (r : Nat) : readCompound (r + 1) s ts =
      readConditions r s .any [] (t :: rest) := by
  rw [readCompound.eq_def]
  simp only [h]
  rw [if_neg hends]

/-- A compound begins with a name, or with its first condition at once. -/
theorem exists_of_readCompound {r : Nat}
    (h : readCompound (r + 1) s ts = some (x, left)) :
    (∃ e rest, readElement s (skipBlanks ts) = some (some e, rest) ∧
      readConditions r s e [] rest = some (x, left)) ∨
    ∃ t rest, readElement s (skipBlanks ts) = some (none, t :: rest) ∧
      ¬ endsCompound s t = true ∧
        readConditions r s .any [] (t :: rest) = some (x, left) := by
  rw [readCompound.eq_def] at h
  dsimp only at h
  split at h
  · cases h
  · next e rest hread => exact .inl ⟨e, rest, hread, h⟩
  · next hread =>
      split at h
      · cases h
      · split at h
        · cases h
        · next hends => exact .inr ⟨_, _, hread, hends, h⟩

theorem endsCompound_of_readCompound
    (h : readCompound rounds s ts = some (x, left)) :
    EndsCompound s left := by
  cases rounds with
  | zero => cases h
  | succ rounds =>
      rcases exists_of_readCompound h with ⟨e, rest, -, hrest⟩ |
        ⟨t, rest, -, -, hrest⟩
      · exact endsCompound_of_readConditions hrest
      · exact endsCompound_of_readConditions hrest

theorem local_compound_named (hlocal : AllLocal rounds) {rest : List Token}
    (hread : readElement s (skipBlanks ts) = some (some e, rest))
    (h : readConditions rounds s e [] rest = some (x, left)) :
    ∃ us, ts = us ++ left ∧ 1 ≤ us.length ∧ ∀ r, 5 * us.length + 2 ≤ r →
      Takes (readCompound r s) (EndsCompound s) us x := by
  obtain ⟨n, hn⟩ := exists_blanks ts
  obtain ⟨t, us, ht, hts, htakes⟩ := exists_of_readElement_some hread
  obtain ⟨vs, rfl, -, hagain⟩ := hlocal.conditions s e [] h
  refine ⟨blanks n ++ (t :: us) ++ vs,
    by rw [hn, hts]; simp, ?_, fun r hr tail htail => ?_⟩
  · simp only [List.length_append, List.length_cons]
    omega
  simp only [List.length_append, List.length_cons] at hr
  obtain ⟨r, rfl⟩ :=
    Nat.exists_eq_add_of_le' (Nat.le_trans (Nat.le_add_left 2 _) hr)
  have hback : (vs ++ tail).head? = some (.delim '|') →
      (vs ++ left).head? = some (.delim '|') := by
    intro he
    cases vs with
    | nil =>
        have hends := htail _ he
        rw [endsCompound] at hends
        simp at hends
    | cons v vs => exact he
  have hagain' : readElement s (skipBlanks
      (blanks n ++ (t :: us) ++ vs ++ tail)) = some (some e, vs ++ tail) := by
    rw [List.append_assoc, List.append_assoc, List.cons_append,
      skipBlanks_blanks_append_cons ht]
    exact htakes _ hback
  exact (readCompound_named hagain' _).trans
    (hagain (r + 1) (by omega) tail htail)

theorem local_compound_unnamed (hlocal : AllLocal rounds) {t : Token}
    {rest : List Token}
    (hread : readElement s (skipBlanks ts) = some (none, t :: rest))
    (hends : ¬ endsCompound s t = true)
    (h : readConditions rounds s .any [] (t :: rest) = some (x, left)) :
    ∃ us, ts = us ++ left ∧ 1 ≤ us.length ∧ ∀ r, 5 * us.length + 2 ≤ r →
      Takes (readCompound r s) (EndsCompound s) us x := by
  obtain ⟨n, hn⟩ := exists_blanks ts
  obtain ⟨hskip, htakes⟩ := exists_of_readElement_none hread
  rw [← hskip] at hn htakes
  have hblank : t ≠ .blank := by
    rintro rfl
    exact hends rfl
  have hleft := endsCompound_of_readConditions h
  obtain ⟨us, hus, -, hagain⟩ := hlocal.conditions s .any [] h
  -- The first condition is read, for a compound does not end before it.
  cases us with
  | nil =>
      rw [List.nil_append] at hus
      exact absurd (endsCompound_cons.1 (hus ▸ hleft)) hends
  | cons u us =>
      injection hus with ht hrest
      subst ht
      subst hrest
      refine ⟨blanks n ++ (t :: us), by rw [hn, List.append_assoc]; rfl, ?_,
        fun r hr tail htail => ?_⟩
      · simp only [List.length_append, List.length_cons]
        omega
      simp only [List.length_append, List.length_cons] at hr hagain
      obtain ⟨r, rfl⟩ :=
        Nat.exists_eq_add_of_le' (Nat.le_trans (Nat.le_add_left 2 _) hr)
      have hagain' : readElement s (skipBlanks (blanks n ++ (t :: us) ++
          tail)) = some (none, t :: (us ++ tail)) := by
        rw [List.append_assoc, List.cons_append,
          skipBlanks_blanks_append_cons hblank]
        exact htakes _ rfl
      exact (readCompound_unnamed hagain' hends _).trans
        (hagain (r + 1) (by omega) tail htail)

theorem local_compound_succ (hlocal : AllLocal rounds) (s : Standing) :
    Local (fun r => readCompound r s) 1 2 (EndsCompound s) (rounds + 1) := by
  intro ts x left h
  rcases exists_of_readCompound h with ⟨e, rest, hread, hrest⟩ |
    ⟨t, rest, hread, hends, hrest⟩
  · exact local_compound_named hlocal hread hrest
  · exact local_compound_unnamed hlocal hread hends hrest

/-! ### Pseudo-classes -/

theorem readPseudo_plain (h : NoArgument ts) (r : Nat) (name : String) :
    readPseudo (r + 1) s e name ts =
      (pseudoClass? s e name).map fun c => (.pseudo c, ts) := by
  rw [readPseudo.eq_def]
  dsimp only
  split
  · exact absurd rfl h
  · rfl

/-- What stands between the parentheses of a pseudo-class, read as its name asks
for. -/
inductive ReadsArgument (r : Nat) (s : Standing) (e : ElementTest)
    (name : String) (ts : List Token) :
    Condition → List Token → Prop
  | not {chain : Complex} {left : List Token}
      (hname : Text.asciiLowercase name = "not")
      (hnegated : ¬ s.negated = true)
      (h : readComplex r .tested ts = some (chain, .delim ')' :: left)) :
      ReadsArgument r s e name ts (.not chain) left
  | anyOf {alternatives : List Compound} {left : List Token}
      (hname : Text.asciiLowercase name ∈ ["is", "where", "matches"])
      (h : readAlternatives r ts = some (alternatives, left)) :
      ReadsArgument r s e name ts (.anyOf alternatives) left
  | has {related : List Relative} {left : List Token}
      (hname : Text.asciiLowercase name = "has")
      (h : readRelated r s ts = some (related, left)) :
      ReadsArgument r s e name ts (.has related) left
  | function {arguments : List Token} {condition : Condition}
      {left : List Token}
      (hname : Text.asciiLowercase name ∉
        ["not", "is", "where", "matches", "has"])
      (h : readArguments ts = some (arguments, left))
      (hcondition : functionCondition? e name arguments = some condition) :
      ReadsArgument r s e name ts condition left

section Argument

variable {r : Nat} {name : String} {condition : Condition}

theorem ReadsArgument.readPseudo_eq
    (h : ReadsArgument r s e name ts condition left) :
    readPseudo (r + 1) s e name (.delim '(' :: ts) =
      some (condition, left) := by
  cases h with
  | not hname hnegated h =>
      rw [readPseudo.eq_def]
      simp only [hname, h]
      rw [if_neg hnegated]
  | anyOf hname h =>
      rw [readPseudo.eq_def]
      simp only [List.mem_cons, List.not_mem_nil, or_false] at hname
      rcases hname with hname | hname |
        hname <;> simp only [hname, h, Option.map_some]
  | has hname h => exact readPseudo_has hname h
  | function hname h hcondition =>
      simp only [List.mem_cons, List.not_mem_nil, or_false, not_or] at hname
      obtain ⟨hnot, his, hwhere, hmatches, hhas⟩ := hname
      rw [readPseudo.eq_def]
      dsimp only
      split
      · next he =>
          cases he
          split
          · next he => exact absurd he hnot
          · next he => exact absurd he his
          · next he => exact absurd he hwhere
          · next he => exact absurd he hmatches
          · next he => exact absurd he hhas
          · rw [h]
            dsimp only
            rw [hcondition, Option.map_some]
      · next hother => exact absurd rfl (hother ts)

theorem readsArgument_of_readPseudo
    (h : readPseudo (r + 1) s e name (.delim '(' :: ts) =
      some (condition, left)) :
    ReadsArgument r s e name ts condition left := by
  have hanyOf : Text.asciiLowercase name ∈ ["is", "where", "matches"] →
      ((readAlternatives r ts).map fun read => (.anyOf read.1, read.2)) = some
      (condition, left) → ReadsArgument r s e name ts condition left := by
    intro hname h
    obtain ⟨⟨alternatives, _⟩, halternatives, he⟩ := Option.map_eq_some_iff.1 h
    cases he
    exact .anyOf hname halternatives
  rw [readPseudo.eq_def] at h
  dsimp only at h
  split at h
  · next he =>
      cases he
      split at h
      · next hname =>
          split at h
          · cases h
          · next hnegated =>
              split at h
              · next hchain =>
                  cases h
                  exact .not hname hnegated hchain
              · cases h
      · next hname => exact hanyOf (by simp [hname]) h
      · next hname => exact hanyOf (by simp [hname]) h
      · next hname => exact hanyOf (by simp [hname]) h
      · next hname =>
          obtain ⟨⟨related, _⟩, hrelated, he⟩ := Option.map_eq_some_iff.1 h
          cases he
          exact .has hname hrelated
      · next hnot his hwhere hmatches hhas =>
          split at h
          · cases h
          · next harguments =>
              obtain ⟨_, hcondition, he⟩ := Option.map_eq_some_iff.1 h
              cases he
              refine .function ?_ harguments hcondition
              simp only [List.mem_cons, List.not_mem_nil, or_false, not_or]
              exact ⟨hnot, his, hwhere, hmatches, hhas⟩
  · next hother => exact absurd rfl (hother ts)

/-- An argument is read again before other tokens, for each reader of one is
local. -/
theorem ReadsArgument.again (hlocal : AllLocal rounds)
    (h : ReadsArgument rounds s e name ts condition left) :
    ∃ us, ts = us ++ left ∧ ∀ r, 5 * us.length + 4 ≤ r → ∀ tail,
      ReadsArgument r s e name (us ++ tail) condition tail := by
  cases h with
  | not hname hnegated h =>
      obtain ⟨us, rfl, -, hagain⟩ := hlocal.complex .tested h
      refine ⟨us ++ [.delim ')'], List.append_cons us _ left,
        fun r hr tail => ?_⟩
      rw [List.length_append, List.length_singleton] at hr
      rw [List.append_assoc]
      exact .not hname hnegated (hagain r (by omega) _ rfl)
  | anyOf hname h =>
      obtain ⟨us, rfl, -, hagain⟩ := hlocal.alternatives h
      exact ⟨us, rfl, fun r hr tail =>
        .anyOf hname (hagain r (by omega) tail trivial)⟩
  | has hname h =>
      obtain ⟨us, rfl, -, hagain⟩ := hlocal.related s h
      exact ⟨us, rfl, fun r hr tail =>
        .has hname (hagain r (by omega) tail trivial)⟩
  | function hname h hcondition =>
      obtain ⟨us, rfl, hagain⟩ := exists_of_readArguments h
      exact ⟨us, rfl, fun r _ tail => .function hname (hagain tail) hcondition⟩

end Argument

theorem local_pseudo_succ (hlocal : AllLocal rounds) (s : Standing)
    (e : ElementTest) (name : String) :
    Local (fun r => readPseudo r s e name) 0 1 NoArgument (rounds + 1) := by
  intro ts condition left h
  dsimp only at h
  by_cases hparen : ts.head? = some (.delim '(')
  · obtain ⟨rest, rfl⟩ := List.head?_eq_some_iff.1 hparen
    obtain ⟨us, rfl, hagain⟩ := (readsArgument_of_readPseudo h).again hlocal
    refine ⟨.delim '(' :: us, rfl, Nat.zero_le _, fun r hr tail _ => ?_⟩
    rw [List.length_cons] at hr
    obtain ⟨r, rfl⟩ :=
      Nat.exists_eq_add_of_le' (Nat.le_trans (Nat.le_add_left 1 _) hr)
    exact (hagain r (by omega) tail).readPseudo_eq
  · rw [readPseudo_plain hparen] at h
    obtain ⟨c, hc, he⟩ := Option.map_eq_some_iff.1 h
    cases he
    refine ⟨[], rfl, Nat.le_refl 0, fun r hr tail htail => ?_⟩
    obtain ⟨r, rfl⟩ := Nat.exists_eq_add_of_le' hr
    exact (readPseudo_plain htail r name).trans (by rw [hc]; rfl)

/-! ### Lists in parentheses -/

section Lists

variable {r : Nat} {rest : List Token}

theorem readAlternatives_cons {alternatives : List Compound} {more : List Token}
    (h : readCompound r .tested ts = some (x, rest)) (hcomma : skipBlanks rest =
      .delim ',' :: more)
    (hmore : readAlternatives r more = some (alternatives, left)) :
    readAlternatives (r + 1) ts = some (x :: alternatives, left) := by
  rw [readAlternatives.eq_def]
  simp only [h, hcomma, hmore, Option.map_some]

theorem readRelated_cons {c : Combinator} {chain : Complex}
    {related : List Relative} {more : List Token}
    (hcombinator : readCombinator (skipBlanks ts) = (c, rest))
    (h : readComplex r s.related rest = some (chain, .delim ',' :: more))
    (hmore : readRelated r s more = some (related, left)) :
    readRelated (r + 1) s ts = some (.mk c chain :: related, left) := by
  rw [readRelated.eq_def]
  simp only [hcombinator, h, hmore, Option.map_some]

end Lists

theorem local_alternatives_succ (hlocal : AllLocal rounds) :
    Local readAlternatives 0 1 (fun _ => True) (rounds + 1) := by
  intro ts alternatives left h
  rw [readAlternatives.eq_def] at h
  dsimp only at h
  split at h
  · cases h
  · next compound rest hcompound =>
      obtain ⟨us, rfl, -, hagain⟩ := hlocal.compound .tested hcompound
      obtain ⟨n, hn⟩ := exists_blanks rest
      have hends : ∀ {c : Char} {ts : List Token}, endsCompound .tested (.delim
          c) = true → EndsCompound .tested (blanks n ++ .delim c :: ts) :=
        fun hc => endsCompound_blanks_append (endsCompound_cons.2 hc)
      split at h
      · next left hclose =>
          cases h
          rw [hclose] at hn
          refine ⟨us ++ (blanks n ++ [.delim ')']), by simp [hn], Nat.zero_le _,
            fun r hr tail _ => ?_⟩
          simp only [List.length_append, List.length_singleton] at hr
          obtain ⟨r, rfl⟩ :=
            Nat.exists_eq_add_of_le' (Nat.le_trans (Nat.le_add_left 1 _) hr)
          simp only [List.append_assoc, List.singleton_append]
          exact readAlternatives_last (hagain r (by omega) _ (hends rfl))
            (skipBlanks_blanks_append_cons (by simp) n tail)
      · next more hcomma =>
          obtain ⟨⟨others, _⟩, hothers, he⟩ := Option.map_eq_some_iff.1 h
          cases he
          rw [hcomma] at hn
          obtain ⟨vs, rfl, -, hothers'⟩ := hlocal.alternatives hothers
          refine ⟨us ++ (blanks n ++ .delim ',' :: vs),
            by simp [hn], Nat.zero_le _, fun r hr tail _ => ?_⟩
          simp only [List.length_append, List.length_cons] at hr
          obtain ⟨r, rfl⟩ :=
            Nat.exists_eq_add_of_le' (Nat.le_trans (Nat.le_add_left 1 _) hr)
          simp only [List.append_assoc, List.cons_append]
          exact readAlternatives_cons (hagain r (by omega) _ (hends rfl))
            (skipBlanks_blanks_append_cons (by simp) n _)
            (hothers' r (by omega) tail trivial)
      · cases h

theorem local_related_succ (hlocal : AllLocal rounds) (s : Standing) :
    Local (fun r => readRelated r s) 0 1 (fun _ => True) (rounds + 1) := by
  intro ts related left h
  dsimp only at h
  rw [readRelated.eq_def] at h
  dsimp only at h
  obtain ⟨n, hn⟩ := exists_blanks ts
  obtain ⟨c, rest, hcombinator⟩ : ∃ c rest, readCombinator (skipBlanks ts) =
      (c, rest) := ⟨_, _, rfl⟩
  obtain ⟨us, hus, hagain⟩ := exists_of_readCombinator hcombinator
  rw [hcombinator] at h
  dsimp only at h
  split at h
  · cases h
  · next chain rest hchain =>
      obtain ⟨vs, rfl, hpos, hchain'⟩ := hlocal.complex s.related hchain
      have hvs : vs ≠ [] := List.ne_nil_of_length_pos hpos
      -- The chain takes a token, so what follows it is not seen from in front
      -- of it.
      have hfront : ∀ tail, readCombinator (skipBlanks (blanks n ++
          (us ++ (vs ++ tail)))) = (c, vs ++ tail) := fun tail => by
        rw [skipBlanks_blanks_append]
        · exact hagain _ (head?_append_congr hvs _ _)
        · rw [← List.append_assoc, head?_append_congr (by simp [hvs]) _ rest,
            List.append_assoc, ← hus]
          exact head?_skipBlanks ts
      rw [hus] at hn
      split at h
      · cases h
        refine ⟨blanks n ++ (us ++ (vs ++ [.delim ')'])),
          by simp [hn], Nat.zero_le _, fun r hr tail _ => ?_⟩
        simp only [List.length_append, List.length_singleton] at hr
        obtain ⟨r, rfl⟩ :=
          Nat.exists_eq_add_of_le' (Nat.le_trans (Nat.le_add_left 1 _) hr)
        simp only [List.append_assoc, List.singleton_append]
        exact readRelated_last (hfront _) (hchain' r (by omega) _ rfl)
      · next more =>
          obtain ⟨⟨others, _⟩, hothers, he⟩ := Option.map_eq_some_iff.1 h
          cases he
          obtain ⟨ws, rfl, -, hothers'⟩ := hlocal.related s hothers
          refine ⟨blanks n ++ (us ++ (vs ++ .delim ',' :: ws)),
            by simp [hn], Nat.zero_le _, fun r hr tail _ => ?_⟩
          simp only [List.length_append, List.length_cons] at hr
          obtain ⟨r, rfl⟩ :=
            Nat.exists_eq_add_of_le' (Nat.le_trans (Nat.le_add_left 1 _) hr)
          simp only [List.append_assoc, List.cons_append]
          exact readRelated_cons (hfront _) (hchain' r (by omega) _ rfl)
            (hothers' r (by omega) tail trivial)
      · cases h

/-! ### Chains -/

/-- A compound and the rest of a chain behind it. -/
theorem local_compound_chain (hlocal : AllLocal rounds) {s' : Standing}
    (hends : EndsCompound s' = EndsCompound s) {front chain : Complex}
      {rest : List Token}
    (hcompound : readCompound rounds s' ts = some (x, rest))
    (hchain : readChain rounds s front (skipBlanks rest) = some (chain, left)) :
    ∃ us, ts = us ++ left ∧ 1 ≤ us.length ∧ ∀ r, 5 * us.length + 2 ≤ r → ∀ tail,
      endsChain s tail = true →
        ∃ rest', readCompound r s' (us ++ tail) = some (x, rest') ∧
        readChain r s front (skipBlanks rest') = some (chain, tail) := by
  have hrest := endsCompound_of_readCompound hcompound
  obtain ⟨us, rfl, hpos, hagain⟩ := hlocal.compound s' hcompound
  obtain ⟨n, hn⟩ := exists_blanks rest
  obtain ⟨vs, hvs, -, hchain'⟩ := hlocal.chain s front hchain
  rw [hvs] at hn
  rw [hends] at hrest
  refine ⟨us ++ (blanks n ++ vs), by simp [hn], ?_, fun r hr tail htail => ?_⟩
  · rw [List.length_append]
    omega
  simp only [List.length_append] at hr
  -- Either the chain goes on with a token that was there before, or the rest
  -- follows at once.
  have hback : EndsCompound s (blanks n ++ (vs ++ tail)) := by
    cases vs with
    | nil => exact endsCompound_blanks_append (endsCompound_of_endsChain htail)
    | cons v vs =>
        intro t ht
        refine hrest t ?_
        rw [hn, ← List.append_assoc, head?_append_congr (by simp) left tail,
          List.append_assoc]
        exact ht
  have hskip : skipBlanks (blanks n ++ (vs ++ tail)) = vs ++ tail := by
    refine skipBlanks_blanks_append n ?_
    cases vs with
    | nil => exact ne_blank_of_endsChain htail
    | cons v vs =>
        have hhead := head?_skipBlanks rest
        rw [hvs] at hhead
        exact hhead
  refine ⟨blanks n ++ (vs ++ tail), ?_, ?_⟩
  · rw [List.append_assoc, List.append_assoc]
    exact hagain r (by omega) _ (hends ▸ hback)
  · rw [hskip]
    exact hchain' r (by omega) tail htail

theorem local_complex_succ (hlocal : AllLocal rounds) (s : Standing) :
    Local (fun r => readComplex r s) 1 3 (endsChain s · = true)
      (rounds + 1) := by
  intro ts chain left h
  dsimp only at h
  rw [readComplex.eq_def] at h
  dsimp only at h
  split at h
  · cases h
  · next compound rest hcompound =>
      obtain ⟨us, rfl, hpos, hagain⟩ :=
        local_compound_chain hlocal rfl hcompound h
      refine ⟨us, rfl, hpos, fun r hr tail htail => ?_⟩
      obtain ⟨r, rfl⟩ :=
        Nat.exists_eq_add_of_le' (Nat.le_trans (Nat.le_add_left 3 _) hr)
      obtain ⟨rest', hcompound', hchain⟩ := hagain (r + 2) (by omega) tail htail
      exact (readComplex_of_readCompound hcompound').trans hchain

theorem readChain_join {r : Nat} {c : Combinator} {rest rest' : List Token}
    {front : Complex} (hends : ¬ endsChain s ts = true)
    (hcombinator : readCombinator ts = (c, rest))
    (hcompound : readCompound r (s.joined c) rest = some (x, rest')) :
    readChain (r + 1) s front ts =
      readChain r s (.join front c x) (skipBlanks rest') := by
  rw [readChain.eq_def]
  dsimp only
  rw [if_neg hends]
  simp only [hcombinator, hcompound]

/-- What a chain that does not end reads next. -/
theorem exists_join_of_readChain {r : Nat} {front chain : Complex}
    (hends : ¬ endsChain s ts = true)
    (h : readChain (r + 1) s front ts = some (chain, left)) :
    ∃ c rest x rest', readCombinator ts = (c, rest) ∧
      readCompound r (s.joined c) rest = some (x, rest') ∧
      readChain r s (.join front c x) (skipBlanks rest') =
        some (chain, left) := by
  rw [readChain.eq_def] at h
  dsimp only at h
  rw [if_neg hends] at h
  split at h
  · cases h
  · next x rest' hcompound =>
      exact ⟨_, _, x, rest', rfl, hcompound, h⟩

theorem endsChain_congr {ts' : List Token} (h : ts.head? = ts'.head?) :
    endsChain s ts = endsChain s ts' := by
  cases ts with
  | nil => cases ts' with
    | nil => rfl
    | cons t ts' => cases h
  | cons t ts =>
      obtain ⟨ts', rfl⟩ := List.head?_eq_some_iff.1 h.symm
      rfl

theorem local_chain_succ (hlocal : AllLocal rounds) (s : Standing)
    (front : Complex) :
    Local (fun r => readChain r s front) 0 3 (endsChain s · = true)
      (rounds + 1) := by
  intro ts chain left h
  dsimp only at h
  by_cases hends : endsChain s ts = true
  · rw [readChain_of_ends hends] at h
    cases h
    refine ⟨[], rfl, Nat.le_refl 0, fun r hr tail htail => ?_⟩
    obtain ⟨r, rfl⟩ := Nat.exists_eq_add_of_le' hr
    exact readChain_of_ends htail _ front
  · obtain ⟨c, rest, compound, rest', hcombinator, hcompound, hnext⟩ :=
      exists_join_of_readChain hends h
    obtain ⟨us, rfl, hagain⟩ := exists_of_readCombinator hcombinator
    obtain ⟨vs, rfl, hpos, hjoin⟩ :=
      local_compound_chain hlocal (endsCompound_joined s c) hcompound hnext
    have hvs : vs ≠ [] := List.ne_nil_of_length_pos hpos
    refine ⟨us ++ vs, (List.append_assoc us vs left).symm, Nat.zero_le _,
      fun r hr tail htail => ?_⟩
    rw [List.length_append] at hr
    obtain ⟨r, rfl⟩ :=
      Nat.exists_eq_add_of_le' (Nat.le_trans (Nat.le_add_left 3 _) hr)
    obtain ⟨rest'', hcompound', hchain⟩ := hjoin (r + 2) (by omega) tail htail
    have hends' : ¬ endsChain s (us ++ (vs ++ tail)) = true := by
      rw [← List.append_assoc, endsChain_congr
        (head?_append_congr (by simp [hvs]) tail left), List.append_assoc]
      exact hends
    dsimp only
    rw [List.append_assoc]
    exact (readChain_join hends' (hagain _ (head?_append_congr hvs _ _))
      hcompound').trans hchain

/-! ### All of them -/

/-- Every reader is local: what it takes of some tokens depends on nothing
behind them. -/
theorem allLocal (rounds : Nat) : AllLocal rounds := by
  induction rounds with
  | zero =>
      constructor
      all_goals
        intros
        intro ts x left h
        cases h
  | succ rounds hlocal =>
      exact
        { compound := local_compound_succ hlocal
          conditions := local_conditions_succ hlocal
          pseudo := local_pseudo_succ hlocal
          alternatives := local_alternatives_succ hlocal
          related := local_related_succ hlocal
          complex := local_complex_succ hlocal
          chain := local_chain_succ hlocal }

/-! ## Groups -/

/-- The tokens that a chain takes spell it by themselves. -/
theorem groupOf?_of_readComplex {chain : Complex}
    (h : readComplex rounds .first ts = some (chain, left)) :
    ∃ us, ts = us ++ left ∧ groupOf? us = some [chain] := by
  obtain ⟨us, hus, -, hagain⟩ := (allLocal rounds).complex .first h
  have halone := hagain (5 * us.length + 4) (by omega) [] rfl
  rw [List.append_nil] at halone
  refine ⟨us, hus, ?_⟩
  rw [groupOf?, readGroup]
  simp only [halone]

/-- Rounds to spare change nothing. -/
theorem readGroup_of_le {g : Group} (h : readGroup rounds ts = some g) {r : Nat}
    (hr : 5 * ts.length + 5 ≤ r) : readGroup r ts = some g := by
  induction rounds generalizing ts g r with
  | zero => cases h
  | succ rounds ih =>
      obtain ⟨r, rfl⟩ :=
        Nat.exists_eq_add_of_le' (Nat.le_trans (Nat.le_add_left 5 _) hr)
      rw [readGroup] at h
      split at h
      · next chain hchain =>
          cases h
          obtain ⟨us, rfl, -, hagain⟩ := (allLocal rounds).complex .first hchain
          rw [List.append_nil] at hr ⊢
          have halone := hagain (r + 4) (by omega) [] rfl
          rw [List.append_nil] at halone
          rw [readGroup]
          simp only [halone]
      · next chain rest hchain =>
          obtain ⟨others, hothers, rfl⟩ := Option.map_eq_some_iff.1 h
          obtain ⟨us, rfl, -, hagain⟩ := (allLocal rounds).complex .first hchain
          rw [List.length_append, List.length_cons] at hr
          rw [readGroup]
          simp only [hagain (r + 4) (by omega) (.delim ',' :: rest) rfl,
            ih hothers (r := r + 4) (by omega), Option.map_some]
      · cases h

theorem groupOf?_of_blank {g : Group} (h : groupOf? (.blank :: ts) = some g) :
    groupOf? ts = some g := by
  have hcompound : ∀ r s, readCompound r s (.blank :: ts) =
      readCompound r s ts := fun r s => by
    cases r with
    | zero => rfl
    | succ r => rw [readCompound, readCompound, skipBlanks_blank]
  have hcomplex : ∀ r s, readComplex r s (.blank :: ts) = readComplex r s ts :=
    fun r s => by
    cases r with
    | zero => rfl
    | succ r => rw [readComplex, readComplex, hcompound]
  have hgroup : ∀ r, readGroup r (.blank :: ts) = readGroup r ts := fun r => by
    cases r with
    | zero => rfl
    | succ r => rw [readGroup, readGroup, hcomplex]
  rw [groupOf?, hgroup] at h
  exact readGroup_of_le h (Nat.le_refl _)

end SheetBinding.Selector
