import SheetBinding.Proofs.Selector.Nesting

/-!
# The ends of chains

A compound leaves the blanks behind it, for each of its conditions ends in a
token of its own. So a blank at the end of a chain is left by the last compound
and passed over, and the chain is the same without it
(`groupOf?_of_append_blank`). Behind a chain there may also be a comma and a
group, and then all of it is a group (`groupOf?_append_comma`).
-/

namespace SheetBinding.Selector

variable {s : Standing} {e : ElementTest} {ts us left rest : List Token}
  {r : Nat} {conditions : List Condition} {x : Compound}

/-! ## The last token that is taken -/

/-- The last of some tokens is no blank. -/
def EndsPlain (ts : List Token) : Prop :=
  ∃ t, ts.getLast? = some t ∧ t ≠ .blank

theorem EndsPlain.append (h : EndsPlain us) (ts : List Token) :
    EndsPlain (ts ++ us) := by
  obtain ⟨t, ht, hblank⟩ := h
  exact ⟨t, by rw [List.getLast?_append, ht, Option.some_or], hblank⟩

theorem EndsPlain.cons (h : EndsPlain us) (t : Token) : EndsPlain (t :: us) :=
  h.append [t]

theorem endsPlain_singleton {t : Token} (h : t ≠ .blank) : EndsPlain [t] :=
  ⟨t, rfl, h⟩

theorem EndsPlain.of_skipBlanks (h : EndsPlain (skipBlanks ts)) :
    EndsPlain ts := by
  obtain ⟨n, hn⟩ := exists_blanks ts
  rw [hn]
  exact h.append _

theorem not_endsPlain_append_blank (ts : List Token) :
    ¬ EndsPlain (ts ++ [.blank]) := by
  rintro ⟨t, ht, hblank⟩
  rw [List.getLast?_concat] at ht
  exact hblank (Option.some_inj.1 ht).symm

theorem endsPlain_of_readElement
    (h : readElement s ts = some (some e, [])) : EndsPlain ts := by
  cases hfirst : firstWord? ts with
  | none =>
      rw [readElement_none hfirst] at h
      cases h
  | some first =>
      obtain ⟨word, rest⟩ := first
      obtain ⟨t, hblank, rfl⟩ : ∃ t, t ≠ .blank ∧ ts = t :: rest := by
        rcases exists_of_firstWord? hfirst with ⟨name, rfl, -⟩ | ⟨rfl, -⟩
        · exact ⟨_, by simp, rfl⟩
        · exact ⟨_, by simp, rfl⟩
      unfold readElement at h
      dsimp only at h
      split at h
      · cases h
      · next he =>
          cases h
          cases hfirst.symm.trans he
          exact ((endsPlain_singleton (by simp)).cons _).cons _
      · next he =>
          cases h
          cases hfirst.symm.trans he
          exact ((endsPlain_singleton (by simp)).cons _).cons _
      · cases h
      · next he =>
          cases h
          cases hfirst.symm.trans he
          exact endsPlain_singleton hblank

theorem endsPlain_of_readFlag {flag : Bool}
    (h : readFlag ts = some (flag, [])) : EndsPlain ts := by
  have hclosed : ∀ {t rest}, skipBlanks rest = [.delim ']'] →
      EndsPlain (t :: rest) := fun hrest =>
    (EndsPlain.of_skipBlanks (hrest ▸ endsPlain_singleton (by simp))).cons _
  unfold readFlag at h
  split at h
  · cases h
    exact endsPlain_singleton (by simp)
  · split at h
    · next hclose =>
        cases h
        exact hclosed hclose
    · next hclose =>
        cases h
        exact hclosed hclose
    · cases h
  · cases h

theorem endsPlain_of_readAttribute {test : AttributeTest}
    (h : readAttribute ts = some (test, [])) : EndsPlain ts := by
  unfold readAttribute at h
  rw [Option.bind_eq_bind, Option.bind_eq_some_iff] at h
  obtain ⟨⟨⟨space, name⟩, afterName⟩, hname, h⟩ := h
  dsimp only at h
  obtain ⟨t, us, -, hts, -⟩ := exists_of_readAttributeName hname
  refine EndsPlain.of_skipBlanks ?_
  rw [hts]
  refine EndsPlain.append ?_ _
  split at h
  · next hclose =>
      cases h
      exact EndsPlain.of_skipBlanks (hclose ▸ endsPlain_singleton (by simp))
  · rw [Option.bind_eq_bind, Option.bind_eq_some_iff] at h
    obtain ⟨⟨relation, afterRelation⟩, hrelation, h⟩ := h
    rw [Option.bind_eq_bind, Option.bind_eq_some_iff] at h
    obtain ⟨⟨value, afterValue⟩, hvalue, h⟩ := h
    rw [Option.bind_eq_bind, Option.bind_eq_some_iff] at h
    obtain ⟨⟨ignoreCase, after⟩, hflag, h⟩ := h
    cases h
    obtain ⟨c, vs, -, hvs, -⟩ := exists_of_readRelation hrelation
    obtain ⟨v, -, hafter, -⟩ := exists_of_readValue hvalue
    have hlast := (endsPlain_of_readFlag hflag).of_skipBlanks
    have hfromValue : EndsPlain afterRelation :=
      EndsPlain.of_skipBlanks (hafter ▸ hlast.cons v)
    exact EndsPlain.of_skipBlanks (hvs ▸ hfromValue.append _)

theorem endsPlain_of_readArguments {arguments : List Token}
    (h : readArguments ts = some (arguments, [])) : EndsPlain ts := by
  fun_induction readArguments ts generalizing arguments with
  | case1 => cases h
  | case2 rest ih => exact (ih h).cons _
  | case3 c rest hclose =>
      cases h
      exact endsPlain_singleton (by simp)
  | case4 c rest hclose hsign ih =>
      obtain ⟨⟨arguments, _⟩, hrest, he⟩ := Option.map_eq_some_iff.1 h
      cases he
      exact (ih hrest).cons _
  | case5 c rest hclose hsign => cases h
  | case6 name rest => cases h
  | case7 t rest hblank hdelim hhash ih =>
      obtain ⟨⟨arguments, _⟩, hrest, he⟩ := Option.map_eq_some_iff.1 h
      cases he
      exact (ih hrest).cons _

theorem endsPlain_of_readAlternatives {compounds : List Compound}
    (h : readAlternatives r ts = some (compounds, [])) : EndsPlain ts := by
  induction r generalizing ts compounds with
  | zero => cases h
  | succ r ih =>
      rw [readAlternatives.eq_def] at h
      dsimp only at h
      split at h
      · cases h
      · next compound rest hcompound =>
          obtain ⟨us, rfl, -, -⟩ := (allLocal r).compound .tested hcompound
          refine EndsPlain.append (EndsPlain.of_skipBlanks ?_) us
          split at h
          · next hclose =>
              cases h
              rw [hclose]
              exact endsPlain_singleton (by simp)
          · next hcomma =>
              obtain ⟨⟨others, _⟩, hothers, he⟩ := Option.map_eq_some_iff.1 h
              cases he
              rw [hcomma]
              exact (ih hothers).cons _
          · cases h

theorem endsPlain_of_readRelated {related : List Relative}
    (h : readRelated r s ts = some (related, [])) : EndsPlain ts := by
  induction r generalizing ts related with
  | zero => cases h
  | succ r ih =>
      rw [readRelated.eq_def] at h
      dsimp only at h
      obtain ⟨c, rest, hcombinator⟩ :
          ∃ c rest, readCombinator (skipBlanks ts) = (c, rest) := ⟨_, _, rfl⟩
      obtain ⟨us, hus, -⟩ := exists_of_readCombinator hcombinator
      rw [hcombinator] at h
      dsimp only at h
      refine EndsPlain.of_skipBlanks ?_
      rw [hus]
      refine EndsPlain.append ?_ us
      split at h
      · cases h
      · next chain rest hchain =>
          obtain ⟨vs, rfl, -, -⟩ := (allLocal r).complex s.related hchain
          refine EndsPlain.append ?_ vs
          split at h
          · cases h
            exact endsPlain_singleton (by simp)
          · obtain ⟨⟨others, _⟩, hothers, he⟩ := Option.map_eq_some_iff.1 h
            cases he
            exact (ih hothers).cons _
          · cases h

theorem ReadsArgument.endsPlain {name : String} {condition : Condition}
    (h : ReadsArgument r s e name ts condition []) : EndsPlain ts := by
  cases h with
  | not hname hnegated h =>
      obtain ⟨us, rfl, -, -⟩ := (allLocal r).complex .tested h
      exact (endsPlain_singleton (by simp)).append us
  | anyOf hname h => exact endsPlain_of_readAlternatives h
  | has hname h => exact endsPlain_of_readRelated h
  | function hname h hcondition => exact endsPlain_of_readArguments h

theorem ReadsCondition.endsPlain {e' : ElementTest}
    {conditions' : List Condition}
    (h : ReadsCondition r s e conditions ts e' conditions' []) :
    EndsPlain ts := by
  cases h with
  | hash name => exact endsPlain_singleton (by simp)
  | className name => exact (endsPlain_singleton (by simp)).cons _
  | name name => exact (endsPlain_singleton (by simp)).cons _
  | test h => exact (endsPlain_of_readAttribute h).cons _
  | @pseudo name condition ts _ h =>
      have hname : EndsPlain [.ident name] := endsPlain_singleton (by simp)
      refine EndsPlain.cons ?_ _
      cases r with
      | zero => cases h
      | succ r =>
          by_cases hparen : ts.head? = some (.delim '(')
          · obtain ⟨rest, rfl⟩ := List.head?_eq_some_iff.1 hparen
            have hargument := (readsArgument_of_readPseudo h).endsPlain
            exact (hargument.cons _).cons _
          · rw [readPseudo_plain hparen] at h
            obtain ⟨c, -, he⟩ := Option.map_eq_some_iff.1 h
            cases he
            exact hname

theorem endsPlain_of_readConditions
    (h : readConditions r s e conditions ts = some (x, [])) :
    ts = [] ∨ EndsPlain ts := by
  induction r generalizing e conditions ts with
  | zero => cases h
  | succ r ih =>
      by_cases hends : EndsCompound s ts
      · rw [readConditions_of_ends hends] at h
        cases h
        exact .inl rfl
      · obtain ⟨e', conditions', rest, hfirst, hrest⟩ :=
          exists_readsCondition hends h
        rcases ih hrest with rfl | hplain
        · exact .inr hfirst.endsPlain
        · obtain ⟨us, rfl, -, -⟩ := hfirst.again (allLocal r)
          exact .inr (hplain.append us)

/-- A compound that leaves nothing does not take a blank last. -/
theorem endsPlain_of_readCompound
    (h : readCompound r s ts = some (x, [])) : EndsPlain ts := by
  cases r with
  | zero => cases h
  | succ r =>
      refine EndsPlain.of_skipBlanks ?_
      rcases exists_of_readCompound h with
        ⟨e, rest, hread, hrest⟩ | ⟨t, rest, hread, -, hrest⟩
      · rcases endsPlain_of_readConditions hrest with rfl | hplain
        · exact endsPlain_of_readElement hread
        · obtain ⟨t, us, -, hts, -⟩ := exists_of_readElement_some hread
          rw [hts]
          exact hplain.append _
      · obtain ⟨hskip, -⟩ := exists_of_readElement_none hread
        rw [← hskip]
        exact (endsPlain_of_readConditions hrest).resolve_left
          (List.cons_ne_nil _ _)

/-! ## A blank at the end -/

theorem skipBlanks_append_blank (h : skipBlanks ts ≠ []) :
    skipBlanks (ts ++ [.blank]) = skipBlanks ts ++ [.blank] := by
  unfold skipBlanks at h ⊢
  rw [List.dropWhile_append, if_neg (by simpa using h)]

theorem skipBlanks_append_blank_of_nil (h : skipBlanks ts = []) :
    skipBlanks (ts ++ [.blank]) = [] := by
  unfold skipBlanks at h ⊢
  rw [List.dropWhile_append, if_pos (by simpa using h)]
  rfl

theorem exists_append_blank (h : ts ++ [.blank] = us ++ left)
    (hleft : left ≠ []) : ∃ rest, left = rest ++ [.blank] ∧
      ts = us ++ rest := by
  obtain ⟨rest, last, rfl⟩ : ∃ rest last, left = rest ++ [last] :=
    ⟨_, _, (List.dropLast_concat_getLast hleft).symm⟩
  rw [← List.append_assoc] at h
  obtain ⟨rfl, hlast⟩ := List.append_inj' h rfl
  cases hlast
  exact ⟨rest, rfl, rfl⟩

/-- A compound leaves a blank at the end, and is read without it. -/
theorem exists_of_readCompound_append_blank
    (h : readCompound r s (ts ++ [.blank]) = some (x, left)) :
    ∃ rest, left = rest ++ [.blank] ∧ rest.length < ts.length ∧
      ∀ r', 5 * ts.length + 2 ≤ r' →
        readCompound r' s ts = some (x, rest) := by
  have hends := endsCompound_of_readCompound h
  obtain ⟨us, hus, hpos, hagain⟩ := (allLocal r).compound s h
  have hleft : left ≠ [] := by
    rintro rfl
    exact not_endsPlain_append_blank ts (endsPlain_of_readCompound h)
  obtain ⟨rest, rfl, rfl⟩ := exists_append_blank hus hleft
  refine ⟨rest, rfl, ?_, fun r' hr' => hagain r' ?_ rest ?_⟩
  · rw [List.length_append]
    omega
  · rw [List.length_append] at hr'
    omega
  · cases rest with
    | nil => exact endsCompound_nil s
    | cons t rest => exact endsCompound_cons.2 (endsCompound_cons.1 hends)

variable {front chain : Complex}

/-- What a chain reads next in front of a blank at the end it reads without the
blank too. -/
theorem exists_join_of_append_blank (hts : ts ≠ [])
    (h : readChain (r + 1) s front (ts ++ [.blank]) = some (chain, [])) :
    ∃ c x rest, rest.length < ts.length ∧
      readChain r s (.join front c x) (skipBlanks (rest ++ [.blank])) =
        some (chain, []) ∧
      ∀ r', 5 * ts.length + 2 ≤ r' →
        readChain (r' + 1) s front ts =
          readChain r' s (.join front c x) (skipBlanks rest) := by
  have hends : ¬ endsChain s (ts ++ [.blank]) = true := fun hends => by
    rw [readChain_of_ends hends] at h
    simp at h
  obtain ⟨c, left, x, after, hcombinator, hcompound, hnext⟩ :=
    exists_join_of_readChain hends h
  have hleft : left ≠ [] := by
    rintro rfl
    obtain ⟨vs, hvs, hpos, -⟩ := (allLocal r).compound (s.joined c) hcompound
    simp [List.append_eq_nil_iff.1 hvs.symm] at hpos
  obtain ⟨us, hus, hagain⟩ := exists_of_readCombinator hcombinator
  obtain ⟨left, rfl, rfl⟩ := exists_append_blank hus hleft
  obtain ⟨rest, rfl, hshorter, hcompound'⟩ :=
    exists_of_readCompound_append_blank hcompound
  have hleft' : left ≠ [] := List.ne_nil_of_length_pos (by omega)
  have hhead : left.head? = (left ++ [Token.blank]).head? := by
    simpa using head?_append_congr hleft' [] [.blank]
  have hends' : ¬ endsChain s (us ++ left) = true := by
    rwa [endsChain_congr (head?_append_congr hts [.blank] []),
      List.append_nil] at hends
  have hle : left.length ≤ (us ++ left).length := by simp
  exact ⟨c, x, rest, Nat.lt_of_lt_of_le hshorter hle, hnext, fun r' hr' =>
    readChain_join hends' (hagain left hhead) (hcompound' r' (by omega))⟩

/-- What a chain goes on with behind its first compounds it goes on with too
where a blank at the end is missing. -/
theorem readChain_of_append_blank {rest : List Token}
    (h : readChain r s front (skipBlanks (rest ++ [.blank])) =
      some (chain, [])) {r' : Nat} (hr' : 5 * rest.length + 3 ≤ r') :
    readChain r' s front (skipBlanks rest) = some (chain, []) := by
  induction r generalizing front rest r' with
  | zero => cases h
  | succ r ih =>
      obtain ⟨r', rfl⟩ := Nat.exists_eq_add_of_le'
        (Nat.le_trans (Nat.le_add_left 1 _) hr')
      by_cases hnil : skipBlanks rest = []
      · rw [skipBlanks_append_blank_of_nil hnil, readChain_of_ends rfl] at h
        rw [hnil, readChain_of_ends rfl]
        exact h
      · rw [skipBlanks_append_blank hnil] at h
        have hle : (skipBlanks rest).length ≤ rest.length :=
          (List.dropWhile_suffix _).length_le
        obtain ⟨c, x, left, hshorter, hchain, hstep⟩ :=
          exists_join_of_append_blank hnil h
        rw [hstep r' (by omega)]
        exact ih hchain (by omega)

theorem readComplex_of_append_blank
    (h : readComplex r s (ts ++ [.blank]) = some (chain, [])) :
    readComplex (5 * ts.length + 4) s ts = some (chain, []) := by
  cases r with
  | zero => cases h
  | succ r =>
      rw [readComplex.eq_def] at h
      dsimp only at h
      split at h
      · cases h
      · next compound rest hcompound =>
          obtain ⟨rest, rfl, hshorter, hcompound'⟩ :=
            exists_of_readCompound_append_blank hcompound
          rw [readComplex_of_readCompound (hcompound' _ (by omega))]
          exact readChain_of_append_blank h (by omega)

/-! ## Groups -/

theorem readGroup_ne_nil : readGroup r ts ≠ some [] := by
  intro h
  cases r with
  | zero => cases h
  | succ r =>
      rw [readGroup] at h
      split at h
      · cases h
      · obtain ⟨others, -, he⟩ := Option.map_eq_some_iff.1 h
        cases he
      · cases h

/-- A group of one chain is that chain and nothing else. -/
theorem exists_readComplex_of_single (h : groupOf? ts = some [chain]) :
    ∃ r, readComplex r .first ts = some (chain, []) := by
  rw [groupOf?, readGroup] at h
  split at h
  · next hchain =>
      cases h
      exact ⟨_, hchain⟩
  · obtain ⟨others, hothers, he⟩ := Option.map_eq_some_iff.1 h
    cases he
    exact absurd hothers readGroup_ne_nil
  · cases h

theorem groupOf?_append_comma {group : Group} (h : groupOf? ts = some [chain])
    (hgroup : groupOf? us = some group) :
    groupOf? (ts ++ .delim ',' :: us) = some (chain :: group) := by
  obtain ⟨r, hchain⟩ := exists_readComplex_of_single h
  obtain ⟨vs, hvs, -, hagain⟩ := (allLocal r).complex .first hchain
  rw [List.append_nil] at hvs
  subst hvs
  have hlength : 5 * ts.length + 3 ≤ 5 * (ts ++ .delim ',' :: us).length + 4 ∧
      5 * us.length + 5 ≤ 5 * (ts ++ .delim ',' :: us).length + 4 := by
    rw [List.length_append, List.length_cons]
    omega
  rw [groupOf?, readGroup]
  simp only [hagain _ hlength.1 (.delim ',' :: us) rfl,
    readGroup_of_le hgroup hlength.2, Option.map_some]

theorem groupOf?_of_readGroup_append_blank {group : Group}
    (h : readGroup r (ts ++ [.blank]) = some group) :
    groupOf? ts = some group := by
  induction r generalizing ts group with
  | zero => cases h
  | succ r ih =>
      rw [readGroup] at h
      split at h
      · next hchain =>
          cases h
          obtain ⟨us, hus, halone⟩ :=
            groupOf?_of_readComplex (readComplex_of_append_blank hchain)
          rw [List.append_nil] at hus
          rwa [hus]
      · next rest hchain =>
          obtain ⟨others, hothers, rfl⟩ := Option.map_eq_some_iff.1 h
          obtain ⟨us, hus, halone⟩ := groupOf?_of_readComplex hchain
          obtain ⟨left, hleft, rfl⟩ :=
            exists_append_blank hus (List.cons_ne_nil _ _)
          cases left with
          | nil => cases hleft
          | cons t left =>
              cases hleft
              exact groupOf?_append_comma halone (ih hothers)
      · cases h

/-- A blank behind a group counts for nothing. -/
theorem groupOf?_of_append_blank {group : Group}
    (h : groupOf? (ts ++ [.blank]) = some group) : groupOf? ts = some group :=
  groupOf?_of_readGroup_append_blank h

end SheetBinding.Selector
