import SheetBinding.Selector.Reader

/-!
# What the readers of selectors take

Each reader takes tokens from the front of those it is given and leaves the
others. Those it takes decide what it gives: before other tokens it takes them
again and gives the same, as long as these do not go on from where it stopped.
That is said here of the readers that do not nest: names, tests of attributes,
arguments and combinators. The blanks between tokens are passed over everywhere.
-/

namespace SheetBinding.Selector

variable {α : Type} {s : Standing} {e : ElementTest} {ts left us : List Token}

/-- A reader takes some tokens and gives `x` for them, whatever follows them
that `follow` admits. -/
def Takes (read : List Token → Option (α × List Token))
    (follow : List Token → Prop) (us : List Token) (x : α) : Prop :=
  ∀ tail, follow tail → read (us ++ tail) = some (x, tail)

/-! ## Blanks -/

/-- So many blanks. -/
def blanks (n : Nat) : List Token :=
  List.replicate n .blank

theorem blanks_succ (n : Nat) : blanks (n + 1) = .blank :: blanks n := rfl

theorem skipBlanks_blank (ts : List Token) :
    skipBlanks (.blank :: ts) = skipBlanks ts := rfl

theorem skipBlanks_of_head? (h : ts.head? ≠ some .blank) :
    skipBlanks ts = ts := by
  cases ts with
  | nil => rfl
  | cons t ts => exact List.dropWhile_cons_of_neg (by simpa using h)

theorem head?_skipBlanks (ts : List Token) :
    (skipBlanks ts).head? ≠ some .blank := by
  intro h
  have hnot := List.head?_dropWhile_not (· == Token.blank) ts
  rw [← skipBlanks, h] at hnot
  cases hnot

theorem exists_blanks (ts : List Token) :
    ∃ n, ts = blanks n ++ skipBlanks ts := by
  induction ts with
  | nil => exact ⟨0, rfl⟩
  | cons t ts ih =>
      by_cases ht : t = .blank
      · obtain ⟨n, hn⟩ := ih
        subst ht
        exact ⟨n + 1, by rw [blanks_succ, skipBlanks_blank,
          List.cons_append, ← hn]⟩
      · exact ⟨0, by rw [skipBlanks_of_head? (by simpa using ht)]; rfl⟩

theorem skipBlanks_blanks_append (n : Nat) (h : ts.head? ≠ some .blank) :
    skipBlanks (blanks n ++ ts) = ts := by
  induction n with
  | zero => exact skipBlanks_of_head? h
  | succ n ih => rw [blanks_succ, List.cons_append, skipBlanks_blank, ih]

theorem skipBlanks_blanks_append_cons {t : Token} (h : t ≠ .blank) (n : Nat)
    (ts : List Token) :
    skipBlanks (blanks n ++ t :: ts) = t :: ts :=
  skipBlanks_blanks_append n (by simpa using h)

theorem head?_append_congr (h : us ≠ []) (ts ts' : List Token) :
    (us ++ ts).head? = (us ++ ts').head? := by
  cases us with
  | nil => exact absurd rfl h
  | cons u us => rfl

/-! ## Names of elements -/

/-- The first word of the name of an element, a star standing for any, and what
follows it. -/
def firstWord? : List Token → Option (Option String × List Token)
  | .ident name :: rest => some (some name, rest)
  | .delim '*' :: rest => some (none, rest)
  | _ => none

variable {word : Option String} {rest : List Token}

theorem exists_of_firstWord? (h : firstWord? ts = some (word, rest)) :
    (∃ name, ts = .ident name :: rest ∧ word = some name) ∨
      (ts = .delim '*' :: rest ∧ word = none) := by
  unfold firstWord? at h
  split at h
  · cases h
    exact .inl ⟨_, rfl, rfl⟩
  · cases h
    exact .inr ⟨rfl, rfl⟩
  · cases h

theorem readElement_none (h : firstWord? ts = none) :
    readElement s ts = some (none, ts) := by
  unfold readElement
  dsimp only
  split
  · rfl
  all_goals next he => cases h.symm.trans he

theorem readElement_local {name : String}
    (h : firstWord? ts = some (word, .delim '|' :: .ident name :: rest)) :
    readElement s ts =
      some (some (.ofName s.whole word (some name)), rest) := by
  rcases exists_of_firstWord? h with ⟨space, rfl, rfl⟩ | ⟨rfl, rfl⟩ <;> rfl

theorem readElement_star
    (h : firstWord? ts = some (word, .delim '|' :: .delim '*' :: rest)) :
    readElement s ts = some (some (.ofName s.whole word none), rest) := by
  rcases exists_of_firstWord? h with ⟨space, rfl, rfl⟩ | ⟨rfl, rfl⟩ <;> rfl

theorem readElement_word (h : firstWord? ts = some (word, rest))
    (hrest : rest.head? ≠ some (.delim '|')) :
    readElement s ts = some (some (.ofName s.whole none word), rest) := by
  unfold readElement
  dsimp only
  split
  · next he => cases h.symm.trans he
  · next he =>
      cases h.symm.trans he
      exact absurd rfl hrest
  · next he =>
      cases h.symm.trans he
      exact absurd rfl hrest
  · next he =>
      cases h.symm.trans he
      exact absurd rfl hrest
  · next he =>
      cases h.symm.trans he
      rfl

/-- What a name takes it takes again before whatever does not go on from it. -/
theorem exists_of_readElement_some
    (h : readElement s ts = some (some e, left)) :
    ∃ t us, t ≠ .blank ∧ ts = t :: us ++ left ∧
      Takes (readElement s)
        (fun tail => tail.head? = some (.delim '|') →
          left.head? = some (.delim '|'))
        (t :: us) (some e) := by
  cases hfirst : firstWord? ts with
  | none =>
      rw [readElement_none hfirst] at h
      cases h
  | some first =>
      obtain ⟨word, rest⟩ := first
      obtain ⟨t, hblank, rfl, hagain⟩ : ∃ t, t ≠ .blank ∧ ts = t :: rest ∧
          ∀ more, firstWord? (t :: more) = some (word, more) := by
        rcases exists_of_firstWord? hfirst with ⟨name, rfl, rfl⟩ | ⟨rfl, rfl⟩
        · exact ⟨.ident name, by simp, rfl, fun more => rfl⟩
        · exact ⟨.delim '*', by simp, rfl, fun more => rfl⟩
      unfold readElement at h
      dsimp only at h
      split at h
      · next he => cases hfirst.symm.trans he
      · next name rest he =>
          cases h
          cases hfirst.symm.trans he
          exact ⟨t, [.delim '|', .ident name], hblank, rfl,
            fun tail _ => readElement_local (hagain _)⟩
      · next he =>
          cases h
          cases hfirst.symm.trans he
          exact ⟨t, [.delim '|', .delim '*'], hblank, rfl,
            fun tail _ => readElement_star (hagain _)⟩
      · cases h
      · next hbar he =>
          cases h
          cases hfirst.symm.trans he
          refine ⟨t, [], hblank, rfl,
            fun tail hfollow => readElement_word (hagain _) fun htail => ?_⟩
          obtain ⟨more, rfl⟩ := List.head?_eq_some_iff.1 (hfollow htail)
          exact hbar more rfl

theorem exists_of_readElement_none (h : readElement s ts = some (none, left)) :
    left = ts ∧ ∀ tail, tail.head? = ts.head? →
      readElement s tail = some (none, tail) := by
  cases hfirst : firstWord? ts with
  | none =>
      rw [readElement_none hfirst] at h
      cases h
      refine ⟨rfl, fun tail htail => readElement_none ?_⟩
      cases hagain : firstWord? tail with
      | none => rfl
      | some first =>
          rcases exists_of_firstWord? hagain with ⟨name, rfl, -⟩ | ⟨rfl, -⟩
          · obtain ⟨more, rfl⟩ := List.head?_eq_some_iff.1 htail.symm
            cases hfirst
          · obtain ⟨more, rfl⟩ := List.head?_eq_some_iff.1 htail.symm
            cases hfirst
  | some first =>
      unfold readElement at h
      dsimp only at h
      split at h
      · next he => cases hfirst.symm.trans he
      all_goals cases h

/-! ## Tests of attributes -/

/-- A bar goes on from the name of an attribute unless it begins a
comparison. -/
def EndsName (ts : List Token) : Prop :=
  ts.head? = some (.delim '|') → ∃ more, ts = .delim '|' :: .delim '=' :: more

theorem readAttributeName_ident {name : String} (h : EndsName ts) :
    readAttributeName (.ident name :: ts) =
      some (attributeName none name, ts) := by
  unfold readAttributeName
  split
  · next he =>
      cases he
      rfl
  · next he =>
      cases he
      obtain ⟨more, he⟩ := h rfl
      cases he
  · next hcompared _ he =>
      cases he
      obtain ⟨more, he⟩ := h rfl
      cases he
      exact absurd rfl (hcompared more)
  · next he =>
      cases he
      rfl
  · next he => cases he
  · next hident _ => exact absurd rfl (hident name ts)

theorem exists_of_readAttributeName {x : Option String × String}
    (h : readAttributeName ts = some (x, left)) :
    ∃ t us, t ≠ .blank ∧ ts = t :: us ++ left ∧
      Takes readAttributeName EndsName (t :: us) x := by
  unfold readAttributeName at h
  split at h
  · next name rest =>
      cases h
      exact ⟨.ident name, [], by simp, rfl, fun tail => readAttributeName_ident⟩
  · next space name rest =>
      cases h
      exact ⟨.ident space, [.delim '|', .ident name],
        by simp, rfl, fun tail _ => rfl⟩
  · cases h
  · next name rest _ _ _ =>
      cases h
      exact ⟨.ident name, [], by simp, rfl, fun tail => readAttributeName_ident⟩
  · next name rest =>
      cases h
      exact ⟨.delim '*', [.delim '|', .ident name],
        by simp, rfl, fun tail _ => rfl⟩
  · cases h

theorem exists_of_readRelation {x : AttributeRelation}
    (h : readRelation ts = some (x, left)) :
    ∃ c us, c ≠ ']' ∧ ts = .delim c :: us ++ left ∧
      ∀ tail, EndsName (.delim c :: us ++ tail) ∧
        readRelation (.delim c :: us ++ tail) = some (x, tail) := by
  have hname : ∀ {c : Char} {us}, c ≠ '|' → EndsName (.delim c :: us) :=
    fun hc he => by
    cases he
    exact absurd rfl hc
  unfold readRelation at h
  split at h <;> cases h
  · exact ⟨'=', [], by decide, rfl, fun tail => ⟨hname (by decide), rfl⟩⟩
  · exact ⟨'!', [.delim '='],
      by decide, rfl, fun tail => ⟨hname (by decide), rfl⟩⟩
  · exact ⟨'^', [.delim '='],
      by decide, rfl, fun tail => ⟨hname (by decide), rfl⟩⟩
  · exact ⟨'$', [.delim '='],
      by decide, rfl, fun tail => ⟨hname (by decide), rfl⟩⟩
  · exact ⟨'*', [.delim '='],
      by decide, rfl, fun tail => ⟨hname (by decide), rfl⟩⟩
  · exact ⟨'~', [.delim '='],
      by decide, rfl, fun tail => ⟨hname (by decide), rfl⟩⟩
  · exact ⟨'|', [.delim '='],
      by decide, rfl, fun tail => ⟨fun _ => ⟨tail, rfl⟩, rfl⟩⟩

theorem exists_of_readValue {x : String} (h : readValue ts = some (x, left)) :
    ∃ t, t ≠ .blank ∧ ts = t :: left ∧
      ∀ tail, readValue (t :: tail) = some (x, tail) := by
  unfold readValue at h
  split at h <;> cases h
  · exact ⟨.ident x, by simp, rfl, fun tail => rfl⟩
  · exact ⟨.string x, by simp, rfl, fun tail => rfl⟩

theorem exists_of_readFlag {x : Bool} (h : readFlag ts = some (x, left)) :
    ∃ t us, t ≠ .blank ∧ ts = t :: us ++ left ∧
      ∀ tail, readFlag (t :: us ++ tail) = some (x, tail) := by
  unfold readFlag at h
  split at h
  · cases h
    exact ⟨.delim ']', [], by simp, rfl, fun tail => rfl⟩
  · next flag rest =>
      obtain ⟨n, hn⟩ := exists_blanks rest
      have hagain : ∀ tail, skipBlanks (blanks n ++ [.delim ']'] ++ tail) =
          .delim ']' :: tail :=
        fun tail => by
          rw [List.append_assoc]
          exact skipBlanks_blanks_append n (by simp)
      split at h
      · next hflag hclose =>
          cases h
          rw [hclose] at hn
          refine ⟨.ident flag, blanks n ++ [.delim ']'],
            by simp, by simp [hn], fun tail => ?_⟩
          rw [List.cons_append, readFlag, hagain, hflag]
          rfl
      · next hflag hclose =>
          cases h
          rw [hclose] at hn
          refine ⟨.ident flag, blanks n ++ [.delim ']'],
            by simp, by simp [hn], fun tail => ?_⟩
          rw [List.cons_append, readFlag, hagain, hflag]
          rfl
      · cases h
  · cases h

theorem readAttribute_present {space : Option String} {name : String}
    {rest : List Token}
    (hname : readAttributeName (skipBlanks ts) = some ((space, name), rest))
    (hclose : skipBlanks rest = .delim ']' :: left) :
    readAttribute ts = some (⟨space, name, .present, "", false⟩, left) := by
  unfold readAttribute
  rw [hname]
  dsimp only [Option.bind_eq_bind, Option.bind_some]
  rw [hclose]
  rfl

theorem readAttribute_compared {space : Option String} {name value : String}
    {ignoreCase : Bool} {relation : AttributeRelation}
    {afterName afterRelation afterValue : List Token}
    (hname : readAttributeName (skipBlanks ts) =
      some ((space, name), afterName))
    (hopen : (skipBlanks afterName).head? ≠ some (.delim ']'))
    (hrelation : readRelation (skipBlanks afterName) =
      some (relation, afterRelation))
    (hvalue : readValue (skipBlanks afterRelation) = some (value, afterValue))
    (hflag : readFlag (skipBlanks afterValue) = some (ignoreCase, left)) :
    readAttribute ts =
      some (⟨space, name, relation, value, ignoreCase⟩, left) := by
  unfold readAttribute
  rw [hname]
  dsimp only [Option.bind_eq_bind, Option.bind_some]
  split
  · next hclose => exact absurd (by rw [hclose]; rfl) hopen
  · rw [hrelation, Option.bind_some, hvalue, Option.bind_some, hflag]
    rfl

theorem endsName_blanks_append {n : Nat} (h : EndsName ts) :
    EndsName (blanks n ++ ts) := by
  cases n with
  | zero => exact h
  | succ n =>
      intro he
      cases he

theorem exists_of_readAttribute {x : AttributeTest}
    (h : readAttribute ts = some (x, left)) :
    ∃ us, ts = us ++ left ∧ ∀ tail,
      readAttribute (us ++ tail) = some (x, tail) := by
  unfold readAttribute at h
  rw [Option.bind_eq_bind, Option.bind_eq_some_iff] at h
  obtain ⟨⟨⟨space, name⟩, afterName⟩, hname, h⟩ := h
  dsimp only at h
  obtain ⟨n₁, hn₁⟩ := exists_blanks ts
  obtain ⟨n₂, hn₂⟩ := exists_blanks afterName
  obtain ⟨t, us, ht, hts, hagain⟩ := exists_of_readAttributeName hname
  split at h
  · next hclose =>
      cases h
      refine ⟨blanks n₁ ++ (t :: us) ++ (blanks n₂ ++ [.delim ']']), ?_,
        fun tail => ?_⟩
      · rw [hn₁, hts, hn₂, hclose]
        simp
      · have hends : EndsName (blanks n₂ ++ .delim ']' :: tail) :=
          endsName_blanks_append fun he => by cases he
        simp only [List.append_assoc, List.cons_append, List.nil_append]
        refine readAttribute_present ?_
          (skipBlanks_blanks_append_cons (by simp) n₂ tail)
        rw [skipBlanks_blanks_append_cons ht]
        exact hagain _ hends
  · next hopen =>
      rw [Option.bind_eq_bind, Option.bind_eq_some_iff] at h
      obtain ⟨⟨relation, afterRelation⟩, hrelation, h⟩ := h
      rw [Option.bind_eq_bind, Option.bind_eq_some_iff] at h
      obtain ⟨⟨value, afterValue⟩, hvalue, h⟩ := h
      rw [Option.bind_eq_bind, Option.bind_eq_some_iff] at h
      obtain ⟨⟨ignoreCase, after⟩, hflag, h⟩ := h
      cases h
      obtain ⟨n₃, hn₃⟩ := exists_blanks afterRelation
      obtain ⟨n₄, hn₄⟩ := exists_blanks afterValue
      obtain ⟨c, vs, hc, hvs, hrelation'⟩ := exists_of_readRelation hrelation
      obtain ⟨v, hv, hafter, hvalue'⟩ := exists_of_readValue hvalue
      obtain ⟨f, fs, hf, hfs, hflag'⟩ := exists_of_readFlag hflag
      refine ⟨blanks n₁ ++ (t :: us) ++ (blanks n₂ ++ (.delim c :: vs)) ++
        (blanks n₃ ++ v :: (blanks n₄ ++ (f :: fs))), ?_, fun tail => ?_⟩
      · rw [hn₁, hts, hn₂, hvs, hn₃, hafter, hn₄, hfs]
        simp
      · simp only [List.append_assoc, List.cons_append]
        have hskip₂ := skipBlanks_blanks_append_cons (t := .delim c)
          (by simp) n₂
        refine readAttribute_compared ?_ (by rw [hskip₂]; simpa using hc)
          ((congrArg _ (hskip₂ _)).trans (hrelation' _).2) ((congrArg _
          (skipBlanks_blanks_append_cons hv n₃ _)).trans (hvalue' _)) ((congrArg
          _ (skipBlanks_blanks_append_cons hf n₄ _)).trans (hflag' tail))
        rw [skipBlanks_blanks_append_cons ht]
        exact hagain _ (endsName_blanks_append (hrelation' _).1)

/-! ## Arguments -/

theorem exists_of_readArguments {x : List Token}
    (h : readArguments ts = some (x, left)) :
    ∃ us, ts = us ++ left ∧ ∀ tail,
      readArguments (us ++ tail) = some (x, tail) := by
  fun_induction readArguments ts generalizing x with
  | case1 => cases h
  | case2 rest ih =>
      obtain ⟨us, rfl, hagain⟩ := ih h
      exact ⟨.blank :: us, rfl, hagain⟩
  | case3 c rest hclose =>
      cases h
      refine ⟨[.delim c], rfl, fun tail => ?_⟩
      rw [List.singleton_append, readArguments, if_pos hclose]
  | case4 c rest hclose hsign ih =>
      obtain ⟨⟨arguments, _⟩, hrest, he⟩ := Option.map_eq_some_iff.1 h
      cases he
      obtain ⟨us, rfl, hagain⟩ := ih hrest
      refine ⟨.delim c :: us, rfl, fun tail => ?_⟩
      rw [List.cons_append, readArguments, if_neg hclose, if_pos hsign, hagain,
        Option.map_some]
  | case5 c rest hclose hsign => cases h
  | case6 name rest => cases h
  | case7 t rest hblank hdelim hhash ih =>
      obtain ⟨⟨arguments, _⟩, hrest, he⟩ := Option.map_eq_some_iff.1 h
      cases he
      obtain ⟨us, rfl, hagain⟩ := ih hrest
      refine ⟨t :: us, rfl, fun tail => ?_⟩
      rw [List.cons_append, readArguments, hagain, Option.map_some]
      · exact hblank
      · exact hdelim
      · exact hhash

/-! ## Combinators -/

theorem exists_of_readCombinator {c : Combinator}
    (h : readCombinator ts = (c, left)) :
    ∃ us, ts = us ++ left ∧
      ∀ tail, tail.head? = left.head? →
        readCombinator (us ++ tail) = (c, tail) := by
  unfold readCombinator at h
  split at h
  · cases h
    exact ⟨[.delim '>'], rfl, fun tail _ => rfl⟩
  · cases h
    exact ⟨[.delim '+'], rfl, fun tail _ => rfl⟩
  · cases h
    exact ⟨[.delim '~'], rfl, fun tail _ => rfl⟩
  · next hchild hadjacent hsibling =>
      cases h
      refine ⟨[], rfl, fun tail htail => ?_⟩
      have hother : ∀ {d rest}, tail = d :: rest → ∃ more, ts = d :: more :=
        fun he => List.head?_eq_some_iff.1 (by rw [← htail, he]; rfl)
      rw [List.nil_append]
      unfold readCombinator
      split
      · exact (hother rfl).elim fun more he => absurd he (hchild more)
      · exact (hother rfl).elim fun more he => absurd he (hadjacent more)
      · exact (hother rfl).elim fun more he => absurd he (hsibling more)
      · rfl

end SheetBinding.Selector
