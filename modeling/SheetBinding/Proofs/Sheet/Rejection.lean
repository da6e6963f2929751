import SheetBinding.Proofs.Sheet.Completion

/-!
# What a rejection says

A text that has not the right shape is rejected with the name of what is wrong
and the place where it is. `Reading.rejection?_located` says what both of them
mean, in terms of the tokens that were read before: a rule is rejected for a
setting when a setting was begun and not ended, and the place is the first
character that no token could be read from, or, when the text is over too early,
the start of the last token.

What was begun need not be kept in mind for this. It can be told from the tokens
that were expected: if a part of a setting was, and the block could not be
closed in its place, then a name had been read (`showsSetting_expected`).
-/

namespace SheetBinding

open Grammar Text

/-- Tokens that end inside a setting: there is a name with no semicolon behind
it. -/
def Grammar.EndInSetting (ts : List Token) : Prop :=
  ∃ before t inside, ts = before ++ t :: inside ∧ t.kind = .name ∧
    ∀ u ∈ inside, u.kind ≠ .semicolon

namespace Reading

/-- The error of a text that has not the right shape; only of a rule it says
whether a setting is to blame. -/
def malformed : Reading → Bool → Position → ReadError
  | sheet, _ => .malformedSheet
  | setting, _ => .malformedSetting
  | rule, true => .malformedSetting
  | rule, false => .malformedRule

/-- The kinds of tokens that were expected where a reading gave up: those that
were looked for, or none if one of them is there and the text should have been
over. -/
def expected (r : Reading) (last : Option Terminal) (unread : List Char) :
    List Terminal :=
  if (token? (r.sought last) unread).isSome then [] else r.sought last

/-- Whether a part of a setting was expected, and no closing brace in its
place. -/
def showsSetting (expected : List Terminal) : Bool :=
  expected.any [.name, .colon, .value, .semicolon].contains &&
    !expected.contains .closeBrace

/-- The kind of the last token. -/
def lastKind (ts : List Token) : Option Terminal :=
  ts.getLast?.map Token.kind

variable {r : Reading} {last next : Option Terminal} {c d : Cursor}
  {ts : List Token} {s : String} {stop : Stop}

/-! ## What was begun -/

theorem endInSetting_cons {t : Token} :
    EndInSetting (t :: ts) ↔
      EndInSetting ts ∨ t.kind = .name ∧ ∀ u ∈ ts, u.kind ≠ .semicolon := by
  constructor
  · rintro ⟨before, u, inside, heq, hu, hinside⟩
    cases before with
    | nil =>
        cases heq
        exact .inr ⟨hu, hinside⟩
    | cons t' before =>
        cases heq
        exact .inl ⟨before, u, inside, rfl, hu, hinside⟩
  · rintro (⟨before, u, inside, rfl, hu, hinside⟩ | ⟨ht, hinside⟩)
    · exact ⟨t :: before, u, inside, rfl, hu, hinside⟩
    · exact ⟨[], t, ts, rfl, ht, hinside⟩

/-- One token further, a setting is under way if its name has just been read, or
if it was before and has not just been ended. -/
theorem insideSetting_token {kind : Terminal} (h : kind ∈ r.sought last) :
    insideSetting (some kind) = true ↔
      kind = .name ∨ insideSetting last = true ∧ kind ≠ .semicolon := by
  cases last with
  | none => cases r <;> cases List.mem_singleton.1 h <;> decide
  | some last =>
      cases last with
      | selector | closeBrace | name | colon | value =>
          cases List.mem_singleton.1 h
          decide
      | openBrace | semicolon =>
          rcases List.mem_pair.1 h with rfl | rfl <;> decide

/-- Walking on from inside a setting or from outside it. -/
theorem Steps.insideSetting_iff (h : r.Steps last c ts next d) :
    insideSetting next = true ↔
      EndInSetting ts ∨ insideSetting last = true ∧
        ∀ t ∈ ts, t.kind ≠ .semicolon := by
  induction h with
  | refl =>
      have hnil : ¬ EndInSetting [] := by
        rintro ⟨before, t, inside, heq, -⟩
        simp at heq
      simp [hnil]
  | token _ htoken _ _ ih =>
      rw [ih, endInSetting_cons, insideSetting_token (token?_eq_some htoken).1,
        List.forall_mem_cons]
      tauto

theorem Steps.endInSetting_iff (h : r.Steps none c ts next d) :
    EndInSetting ts ↔ insideSetting next = true := by
  rw [h.insideSetting_iff]
  simp [insideSetting]

theorem Steps.lastKind_eq (h : r.Steps none c ts next d) :
    lastKind ts = next := by
  rcases h.lastToken with ⟨rfl, rfl, -⟩ | ⟨front, t, rfl, rfl, -⟩
  · rfl
  · rw [lastKind, List.getLast?_concat, Option.map_some]

/-- What was expected shows whether a setting is under way, if a block was being
read. -/
theorem showsSetting_expected (hr : r ≠ setting) {unread : List Char}
    (hhalts : r.Halts next unread) :
    showsSetting (r.expected next unread) = insideSetting next := by
  -- A block that must be over waits for no part of a setting, whatever is
  -- there.
  have hover : ∀ {kinds : List Terminal}, showsSetting kinds = false →
      showsSetting (if (token? (r.sought next) unread).isSome then []
      else kinds) = false := by
    intro kinds hkinds
    split
    · rfl
    · exact hkinds
  have hsought : r.mustEnd next = false →
      r.expected next unread = r.sought next := by
    intro hend
    have hnone : token? (r.sought next) unread = none := by
      rcases hhalts with h | h
      · rw [h] at hend
        cases hend
      · exact h
    rw [expected, hnone, Option.isSome_none, if_neg Bool.false_ne_true]
  cases next with
  | none =>
      cases r with
      | sheet | rule => exact hover rfl
      | setting => exact absurd rfl hr
  | some kind =>
      cases kind with
      | selector | openBrace | name | colon | value =>
          rw [hsought (mustEnd_eq_false (by decide) (by decide) r)]
          rfl
      | closeBrace | semicolon => exact hover rfl

/-! ## Where it went wrong -/

/-- A trimmed text does not end in a gap. -/
theorem eq_nil_of_skipGap {l front left : List Char}
    (h : trim l = front ++ left) (hskip : skipGap left = []) : left = [] := by
  obtain ⟨w, hw, hleft⟩ := exists_gap left
  rw [hskip, List.append_nil] at hleft
  have htrim := trim_eq_of_gaps gap_nil (by rwa [hleft] : Gap left) h
  rw [htrim] at h
  exact List.self_eq_append_right.1 h

/-- The place that is told if the text goes on: where the gap behind the tokens
ends. -/
theorem place_of_unread {text : List Char}
    (h : r.Steps none (.start text) ts next d) (hskip : skipGap d.left ≠ [])
    (awaited : Option Terminal) :
    Position.ofLeft text (d.stop awaited).left =
      .after (written ts ++ d.left.takeWhile isGap) := by
  have hstop : (d.stop awaited).left = skipGap d.left := by
    rw [Cursor.stop]
    split
    · next hnil => exact absurd hnil hskip
    · rfl
  have htext : text = written ts ++ d.left.takeWhile isGap ++
      skipGap d.left := by
    rw [List.append_assoc, skipGap, List.takeWhile_append_dropWhile]
    exact h.written_append
  rw [hstop]
  nth_rewrite 1 [htext]
  exact Position.ofLeft_append _ _

/-- The place that is told if the text is over: where the last token begins, or
the start. -/
theorem place_of_end {text : List Char}
    (h : r.Steps none (.start text) ts next d) (hend : d.left = [])
    (awaited : Option Terminal) :
    (ts = [] ∧ Position.ofLeft text (d.stop awaited).left = ⟨1, 1⟩) ∨
      ∃ front t, ts = front ++ [t] ∧
        Position.ofLeft text (d.stop awaited).left =
          .after (written front ++ t.gap) := by
  have hstop : (d.stop awaited).left = d.lastToken := by
    rw [Cursor.stop, hend]
    rfl
  rw [hstop]
  rcases h.lastToken with ⟨rfl, -, rfl⟩ | ⟨front, t, rfl, -, hlast⟩
  · exact .inl ⟨rfl, Position.ofLeft_append [] text⟩
  · refine .inr ⟨front, t, rfl, ?_⟩
    have htext : text = written front ++ t.gap ++ (t.text ++ d.left) := by
      have hwritten := h.written_append
      rw [written, List.flatMap_append, List.flatMap_singleton] at hwritten
      rw [show text = (Cursor.start text).left from rfl, hwritten, written]
      simp only [List.append_assoc]
    rw [hlast]
    nth_rewrite 1 [htext]
    exact Position.ofLeft_append _ _

/-- The error that a reading is rejected with says where it stopped, and whether
in a setting. -/
theorem rejection?_of_stop? (h : r.stop? (trim s.toList) = some stop) :
    r.rejection? s =
      some (r.malformed stop.insideSetting
        (.ofLeft (trim s.toList) stop.left)) := by
  cases r with
  | sheet =>
      rw [rejection?, Sheet.read, errorOf?_eq_some_iff.1 h]
      rfl
  | rule =>
      rw [rejection?, Rule.read, errorOf?_eq_some_iff.1 h]
      dsimp only
      cases stop.insideSetting <;> rfl
  | setting =>
      rw [rejection?, Settings.readPair, errorOf?_eq_some_iff.1 h]
      rfl

/-- A text of the wrong shape falls into the tokens that were read and what was
left unread. The error is that of a setting just when the tokens end inside one,
which can be told from what was expected behind them. If something was left, its
place is that of the first character behind the gap, and all that stands before
this can be completed to a text of the right shape. If the text was over too
early, the place is that of the last token. -/
theorem rejection?_located {tokens : List Token} {unread : List Char}
    (h : r.stop? (trim s.toList) = some stop)
    (hrun : r.run none (trim s.toList) = (tokens, unread)) :
    trim s.toList = written tokens ++ unread ∧
    ∃ place inSetting, r.rejection? s = some (r.malformed inSetting place) ∧
      (inSetting = true ↔ EndInSetting tokens) ∧
      (r ≠ setting →
        inSetting = showsSetting (r.expected (lastKind tokens) unread)) ∧
      ((∃ gap c left rest, unread = gap ++ c :: left ∧ Gap gap ∧
        isGap c = false ∧ place = .after (written tokens ++ gap) ∧
          r.stop? (trim (written tokens ++ gap ++ rest)) = none) ∨
        unread = [] ∧
          (tokens = [] ∧ place = ⟨1, 1⟩ ∨
            ∃ front t, tokens = front ++ [t] ∧
              place = .after (written front ++ t.gap))) := by
  obtain ⟨_, next, d, awaited, hrun', hsteps, hhalts, hstop, hinside⟩ :=
    stop?_eq_some h
  cases hrun.symm.trans hrun'
  have htext : trim s.toList = written tokens ++ d.left := hsteps.written_append
  refine ⟨htext, .ofLeft (trim s.toList) stop.left, stop.insideSetting,
    rejection?_of_stop? h, ?_, ?_, ?_⟩
  · rw [hinside, hsteps.endInSetting_iff]
  · intro hr
    rw [hsteps.lastKind_eq, hinside, showsSetting_expected hr hhalts]
  · rw [hstop]
    cases hskip : skipGap d.left with
    | nil =>
        have hend := eq_nil_of_skipGap htext hskip
        exact .inr ⟨hend, place_of_end hsteps hend awaited⟩
    | cons c left =>
        have hgap : Gap (d.left.takeWhile isGap) :=
          fun e he => List.mem_takeWhile_imp he
        have hc : isGap c = false := by
          have hhead := List.head?_dropWhile_not isGap d.left
          rw [show d.left.dropWhile isGap = c :: left from hskip] at hhead
          simpa using hhead
        have hunread : d.left = d.left.takeWhile isGap ++ c :: left := by
          rw [← hskip, skipGap, List.takeWhile_append_dropWhile]
        have hplace := place_of_unread hsteps
          (by rw [hskip]; exact List.cons_ne_nil _ _) awaited
        obtain ⟨rest, hrest⟩ := exists_completion hsteps hgap
        exact .inl ⟨_, c, left, rest, hunread, hgap, hc, hplace,
          by rwa [List.append_assoc]⟩

/-- A rule that lacks a colon, behind a value that has a line feed in it. -/
def colonlessRule : String :=
  "p \x7b\n  a: 'x\ny';\n  b c;\n\x7d"

/-- The colon is missed on the fourth line, after seven tokens, the last of them
the name. -/
theorem rejection?_located_colonless :
    ∃ stop tokens unread, rule.stop? (trim colonlessRule.toList) = some stop ∧
      rule.run none (trim colonlessRule.toList) = (tokens, unread) ∧
      tokens.map Token.kind =
        [.selector, .openBrace, .name, .colon, .value, .semicolon, .name] ∧
      trim colonlessRule.toList = written tokens ++ unread ∧
      EndInSetting tokens ∧
      rule.rejection? colonlessRule = some (.malformedSetting ⟨4, 5⟩) ∧
      ∃ gap rest, (⟨4, 5⟩ : Position) = .after (written tokens ++ gap) ∧
        rule.stop? (trim (written tokens ++ gap ++ rest)) = none := by
  have hplace : rule.rejection? colonlessRule =
      some (.malformedSetting ⟨4, 5⟩) := by
    decide +kernel
  have hkinds : (rule.run none (trim colonlessRule.toList)).1.map Token.kind =
      [.selector, .openBrace, .name, .colon, .value, .semicolon, .name] := by
    decide +kernel
  have hunread : (rule.run none (trim colonlessRule.toList)).2 ≠ [] := by
    decide +kernel
  have hsome : (rule.stop? (trim colonlessRule.toList)).isSome = true := by
    decide +kernel
  obtain ⟨stop, hstop⟩ := Option.isSome_iff_exists.1 hsome
  obtain ⟨htext, place, inSetting, hrejection, hinside, -, hlocated⟩ :=
    rejection?_located hstop rfl
  have hmalformed := Option.some.inj (hplace.symm.trans hrejection)
  cases inSetting with
  | false => cases hmalformed
  | true =>
      obtain rfl : (⟨4, 5⟩ : Position) = place :=
        ReadError.malformedSetting.inj hmalformed
      rcases hlocated with ⟨gap, c, left, rest, -, -, -, hafter, hrest⟩ |
        ⟨hnil, -⟩
      · exact ⟨stop, _, _, hstop, rfl, hkinds, htext, hinside.1 rfl, hplace,
          gap, rest, hafter, hrest⟩
      · exact absurd hnil hunread

end Reading

end SheetBinding
