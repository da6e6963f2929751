import SheetBinding.Literal
import SheetBinding.Proofs.Grammar.Language

/-!
# Terminals as patterns

Terminals are declared by patterns, and a pattern can match in many ways.
`Pattern.leavings` lists what each way leaves of the text, in the order in which
they are tried: the first alternative before the second, and one more repetition
before none. The match that counts is the first of the list.

The scanners never go back, and this is why they need not. A quote begins no
plain character, a backslash is no plain character of a stretch, and a closing
quote is neither, so wherever a repetition stands there is at most one way on.
The pattern of a quoted stretch has for that reason one way to match or none,
the one being the stretch up to the quote that closes it (`leavings_quoted`).
The patterns of selectors and values have as many ways as they have units, since
a repetition may stop early, and the first is the one that stops last
(`head?_leavings_pattern`).
-/

namespace SheetBinding.Grammar

open Text

/-- The patterns that terminals are declared by. -/
inductive Pattern where
  /-- One character of some kind. -/
  | one (accepts : Char → Bool)
  | seq (first second : Pattern)
  | alt (first second : Pattern)
  /-- Any number of repetitions. -/
  | many (body : Pattern)

/-- What is left after each number of steps, more steps before fewer. A step
that takes nothing is no step. -/
def repetitions (step : List Char → List (List Char)) (cs : List Char) :
    List (List Char) :=
  (step cs).flatMap (fun left =>
    if _h : left.length < cs.length then repetitions step left else []) ++ [cs]
termination_by cs.length

namespace Pattern

/-- What is left of a text after each way to match at its front, in the order of
the attempts. -/
def leavings : Pattern → List Char → List (List Char)
  | one _, [] => []
  | one accepts, c :: rest => if accepts c then [rest] else []
  | seq first second, cs => (first.leavings cs).flatMap second.leavings
  | alt first second, cs => first.leavings cs ++ second.leavings cs
  | many body, cs => repetitions body.leavings cs

/-- A character of a stretch between quotes `q`, or a backslash and the
character it escapes. -/
def innerUnit (q : Char) : Pattern :=
  alt (seq (one (· == '\\')) (one fun _ => true))
    (one fun c => !(c == q || c == '\\'))

/-- A stretch between quotes `q`. -/
def between (q : Char) : Pattern :=
  seq (one (· == q)) (seq (many (innerUnit q)) (one (· == q)))

/-- A quoted stretch. -/
def quoted : Pattern :=
  alt (between '"') (between '\'')

/-- Quoted stretches and plain characters, the first of which is no blank. -/
def text (plain : Char → Bool) : Pattern :=
  seq (alt quoted (one fun c => plain c && !isBlank c))
    (many (alt quoted (one plain)))

variable (accepts : Char → Bool) (first second body : Pattern) (cs : List Char)

theorem leavings_one_cons (c : Char) :
    (one accepts).leavings (c :: cs) = if accepts c then [cs] else [] := rfl

theorem leavings_seq :
    (seq first second).leavings cs =
      (first.leavings cs).flatMap second.leavings := rfl

theorem leavings_alt :
    (alt first second).leavings cs = first.leavings cs ++ second.leavings cs :=
      rfl

theorem leavings_many :
    (many body).leavings cs = repetitions body.leavings cs := rfl

end Pattern

open Pattern

/-- The pattern that a terminal is declared by. -/
def Terminal.pattern : Terminal → Pattern
  | selector => text isSelectorChar
  | openBrace => one (· == '\x7b')
  | closeBrace => one (· == '\x7d')
  | name => seq (one isNameChar) (many (one isNameChar))
  | colon => one (· == ':')
  | value => text isValueChar
  | semicolon => one (· == ';')

/-! ## Repetitions with one way on -/

section Repetitions

variable {step : List Char → List (List Char)} {cs left : List Char}

theorem repetitions_of_nil (h : step cs = []) : repetitions step cs = [cs] := by
  rw [repetitions, h]
  rfl

theorem repetitions_of_single (h : step cs = [left])
    (hlt : left.length < cs.length) :
    repetitions step cs = repetitions step left ++ [cs] := by
  rw [repetitions, h, List.flatMap_singleton, dif_pos hlt]

end Repetitions

/-! ## Quoted stretches -/

section Quoted

variable {q c : Char}

theorem leavings_innerUnit_escaped (q c : Char) (rest : List Char) :
    (innerUnit q).leavings ('\\' :: c :: rest) = [rest] := by
  simp [innerUnit, leavings]

theorem leavings_innerUnit_cons (hc : c ≠ '\\') (rest : List Char) :
    (innerUnit q).leavings (c :: rest) = if c == q then [] else [rest] := by
  rw [beq_eq_decide]
  by_cases hcq : c = q
  · subst hcq
    simp [innerUnit, leavings, hc]
  · simp [innerUnit, leavings, hc, hcq]

/-- The ways to go on to a closing quote are the one way to close the
stretch. -/
theorem leavings_closing (hq : isQuote q = true) (cs : List Char) :
    (seq (many (innerUnit q)) (one (· == q))).leavings cs =
      (closeQuote? q cs).toList.map Prod.snd := by
  have hbackslash := (ne_backslash_of_isQuote hq).symm
  rw [leavings_seq, leavings_many]
  fun_induction closeQuote? q cs with
  | case1 =>
      rw [repetitions_of_nil rfl]
      rfl
  | case2 =>
      rw [repetitions_of_nil (by simp [innerUnit, leavings])]
      simp [leavings, hbackslash]
  | case3 c rest ih =>
      rw [repetitions_of_single (leavings_innerUnit_escaped q c rest)
        (by simp only [List.length_cons]; omega), List.flatMap_append, ih]
      simp [leavings, hbackslash, Option.toList_map]
  | case4 c rest hlast hnext hc =>
      have hunit := leavings_innerUnit_cons (q := q)
        (ne_backslash_of_cases hlast hnext) rest
      rw [if_pos hc] at hunit
      rw [repetitions_of_nil hunit]
      simp [leavings, eq_of_beq hc]
  | case5 c rest hlast hnext hc ih =>
      have hunit := leavings_innerUnit_cons (q := q)
        (ne_backslash_of_cases hlast hnext) rest
      rw [if_neg hc] at hunit
      rw [repetitions_of_single hunit (Nat.lt_succ_self _),
        List.flatMap_append, ih]
      simp [leavings, hc, Option.toList_map]

theorem leavings_between_cons (q c : Char) (rest : List Char) :
    (between q).leavings (c :: rest) =
      if c == q then (seq (many (innerUnit q)) (one (· == q))).leavings rest
        else [] := by
  rw [between, leavings_seq, leavings_one_cons]
  split
  · exact List.flatMap_singleton ..
  · rfl

/-- A quoted stretch is matched in one way if its quote is closed, and else in
none. -/
theorem leavings_quoted (hq : isQuote q = true) (rest : List Char) :
    quoted.leavings (q :: rest) = (closeQuote? q rest).toList.map Prod.snd := by
  rw [← leavings_closing hq, quoted, leavings_alt, leavings_between_cons,
    leavings_between_cons]
  rcases isQuote_iff.1 hq with rfl | rfl
  · exact List.append_nil _
  · exact List.nil_append _

theorem leavings_quoted_of_not_isQuote (hc : isQuote c = false)
    (rest : List Char) :
    quoted.leavings (c :: rest) = [] := by
  rw [isQuote, Bool.or_eq_false_iff] at hc
  rw [quoted, leavings_alt, leavings_between_cons, leavings_between_cons,
    hc.1, hc.2]
  rfl

end Quoted

/-! ## Text tokens -/

section Units

variable {plain : Char → Bool}
  (hplain : ∀ c, plain c = true → isQuote c = false)

include hplain

/-- There is at most one way to take a unit, and it is the way that is taken. -/
theorem leavings_unit_cases (c : Char) (rest : List Char) :
    ((alt quoted (one plain)).leavings (c :: rest) = [] ∧
      takeUnits plain (c :: rest) = ([], c :: rest)) ∨
    ∃ left, (alt quoted (one plain)).leavings (c :: rest) = [left] ∧
      left.length < (c :: rest).length ∧ (takeUnits plain (c :: rest)).1 ≠ [] ∧
      (takeUnits plain (c :: rest)).2 = (takeUnits plain left).2 := by
  rw [leavings_alt, leavings_one_cons]
  cases hq : isQuote c with
  | true =>
      have hc : plain c = false := by
        cases hc : plain c with
        | false => rfl
        | true => exact absurd (hplain c hc) (by simp [hq])
      rw [leavings_quoted hq, hc]
      cases hclose : closeQuote? c rest with
      | none => exact .inl ⟨rfl, takeUnits_unclosed hq hclose⟩
      | some found =>
          obtain ⟨inner, after⟩ := found
          refine .inr ⟨after, rfl, ?_, ?_⟩
          · rw [eq_of_closeQuote? hclose]
            simp
            omega
          · rw [takeUnits_quoted hq hclose]
            exact ⟨List.cons_ne_nil _ _, rfl⟩
  | false =>
      rw [leavings_quoted_of_not_isQuote hq]
      cases hc : plain c with
      | false => exact .inl ⟨rfl, takeUnits_stop hq hc rest⟩
      | true =>
          refine .inr ⟨rest, rfl, Nat.lt_succ_self _, ?_⟩
          rw [takeUnits_plain hq hc]
          exact ⟨List.cons_ne_nil _ _, rfl⟩

theorem head?_repetitions_unit (cs : List Char) :
    (repetitions (alt quoted (one plain)).leavings cs).head? =
      some (takeUnits plain cs).2 := by
  match cs with
  | [] =>
      rw [repetitions_of_nil rfl, takeUnits]
      rfl
  | c :: rest =>
      rcases leavings_unit_cases hplain c rest with ⟨hnone, htake⟩ |
        ⟨left, hone, hlt, -, htake⟩
      · rw [repetitions_of_nil hnone, htake]
        rfl
      · rw [repetitions_of_single hone hlt, List.head?_append,
          head?_repetitions_unit left, htake]
        rfl
termination_by cs.length
decreasing_by exact hlt

theorem head?_leavings_text (cs : List Char) :
    ((Pattern.text plain).leavings cs).head? =
      (takeText? plain cs).map Prod.snd := by
  cases cs with
  | nil => rfl
  | cons c rest =>
      rw [Pattern.text, leavings_seq, takeText?, List.head?_cons,
        Option.all_some]
      cases hblank : isBlank c with
      | true =>
          have hq : isQuote c = false := by
            cases hq : isQuote c with
            | false => rfl
            | true => exact absurd (isBlank_of_isQuote hq) (by simp [hblank])
          rw [leavings_alt, leavings_quoted_of_not_isQuote hq,
            leavings_one_cons, hblank]
          simp
      | false =>
          have hfirst : (alt quoted
              (one fun d => plain d && !isBlank d)).leavings (c :: rest) =
              (alt quoted (one plain)).leavings (c :: rest) := by
            rw [leavings_alt, leavings_alt, leavings_one_cons,
              leavings_one_cons, hblank]
            simp
          rw [hfirst]
          rcases leavings_unit_cases hplain c rest with ⟨hnone, htake⟩ |
            ⟨left, hone, -, hne, htake⟩
          · rw [hnone, htake]
            rfl
          · rw [hone, List.flatMap_singleton, leavings_many,
              head?_repetitions_unit hplain, if_neg]
            · rw [Option.map_some, htake]
            · simpa using hne

end Units

/-! ## All terminals -/

theorem head?_repetitions_one (accepts : Char → Bool) (cs : List Char) :
    (repetitions (one accepts).leavings cs).head? =
      some (cs.dropWhile accepts) := by
  induction cs with
  | nil =>
      rw [repetitions_of_nil rfl]
      rfl
  | cons c rest ih =>
      cases hc : accepts c with
      | true =>
          rw [repetitions_of_single (by rw [leavings_one_cons,
            if_pos hc]) (Nat.lt_succ_self _), List.head?_append, ih,
            List.dropWhile_cons_of_pos hc]
          rfl
      | false =>
          have hnot : ¬ accepts c = true := by simp [hc]
          rw [repetitions_of_nil (by rw [leavings_one_cons, if_neg hnot]),
            List.dropWhile_cons_of_neg hnot]
          rfl

/-- A terminal is read as the first way to match its pattern takes it. -/
theorem head?_leavings_pattern (t : Terminal) (cs : List Char) :
    (t.pattern.leavings cs).head? = (t.take? cs).map Prod.snd := by
  have hchar : ∀ c, ((one (· == c)).leavings cs).head? =
      (takeChar? c cs).map Prod.snd := by
    intro c
    cases cs with
    | nil => rfl
    | cons d rest =>
        rw [leavings_one_cons, takeChar?]
        split <;> rfl
  cases t with
  | selector =>
      exact head?_leavings_text (fun c => isQuote_of_isSelectorChar) cs
  | value => exact head?_leavings_text (fun c => isQuote_of_isValueChar) cs
  | openBrace | closeBrace | colon | semicolon => exact hchar _
  | name =>
      cases cs with
      | nil => rfl
      | cons c rest =>
          rw [Terminal.pattern, leavings_seq, leavings_one_cons, Terminal.take?,
            takeName?]
          cases hc : isNameChar c with
          | true =>
              rw [if_pos rfl, List.flatMap_singleton, leavings_many,
                head?_repetitions_one, List.takeWhile_cons_of_pos hc,
                List.dropWhile_cons_of_pos hc]
              rfl
          | false =>
              rw [List.takeWhile_cons_of_neg (by simp [hc])]
              rfl

/-! ## One notion of a quoted stretch -/

section Stretches

variable {q : Char} {rest : List Char}

theorem mem_leavings_quoted_iff (hq : isQuote q = true) {left : List Char} :
    left ∈ quoted.leavings (q :: rest) ↔ ∃ inner, Closes q rest inner left := by
  simp only [leavings_quoted hq, List.mem_map, Option.mem_toList, Prod.exists,
    exists_eq_right, ← closeQuote?_eq_some_iff hq]

theorem length_leavings_quoted_le (hq : isQuote q = true) (rest : List Char) :
    (quoted.leavings (q :: rest)).length ≤ 1 := by
  rw [leavings_quoted hq, List.length_map]
  cases closeQuote? q rest <;> simp

theorem item?_quote_iff (hq : isQuote q = true) {item left : List Char} :
    Literal.item? (q :: rest) = some (item, left) ↔
      ∃ inner, item = q :: (inner ++ [q]) ∧ Closes q rest inner left := by
  rw [Literal.item?, if_pos hq, Option.map_eq_some_iff]
  constructor
  · rintro ⟨⟨inner, after⟩, hclose, he⟩
    cases he
    exact ⟨inner, rfl, (closeQuote?_eq_some_iff hq).1 hclose⟩
  · rintro ⟨inner, rfl, hcloses⟩
    exact ⟨(inner, left), (closeQuote?_eq_some_iff hq).2 hcloses, rfl⟩

theorem takeUnits_not_closed (plain : Char → Bool) (hq : isQuote q = true)
    (h : ¬ ∃ inner left, Closes q rest inner left) :
    takeUnits plain (q :: rest) = ([], q :: rest) := by
  refine takeUnits_unclosed hq ?_
  cases hclose : closeQuote? q rest with
  | none => rfl
  | some found => exact absurd ⟨_, _, (closeQuote?_eq_some_iff hq).1 hclose⟩ h

theorem unquote?_eq_some_iff_closes {cs content : List Char}
    (hend : cs.getLast? ≠ some '\n') :
    unquote? cs = some content ↔
      ∃ q inner, isQuote q = true ∧ cs = q :: (inner ++ [q]) ∧
      Closes q (inner ++ [q]) inner [] ∧ content = withoutEscapes inner := by
  rw [unquote?_eq_some_iff]
  refine exists_congr fun q => exists_congr fun inner =>
    and_congr_right fun hq => ?_
  rw [closes_iff hq, and_iff_left rfl, ← and_assoc, ← and_assoc,
    and_comm (a := Inner q inner)]
  constructor
  · rintro ⟨⟨rfl | rfl, hinner⟩, rfl⟩
    · exact ⟨⟨rfl, hinner⟩, unescape_eq_withoutEscapes hinner⟩
    · rw [← List.cons_append, List.getLast?_append] at hend
      exact absurd rfl hend
  · rintro ⟨⟨rfl, hinner⟩, rfl⟩
    exact ⟨⟨.inl rfl, hinner⟩, (unescape_eq_withoutEscapes hinner).symm⟩

end Stretches

/-- There is one notion of a quoted stretch. From a quote on, the alternatives
for it in the patterns match just up to the first quote of that kind which is
not escaped, in one way and no other; selectors and values take that much as one
unit, and list items that much as an item. Terminals are read as their patterns
match first, and a text is unquoted if it is such a stretch from end to end, by
dropping the backslashes that escape, so that unescaping undoes escaping. -/
theorem quoted_stretches :
    (∀ q rest, isQuote q = true →
      (∀ left, left ∈ quoted.leavings (q :: rest) ↔
        ∃ inner, Closes q rest inner left) ∧
      (quoted.leavings (q :: rest)).length ≤ 1 ∧
      (∀ plain inner left, Closes q rest inner left →
        takeUnits plain (q :: rest) =
        (q :: inner ++ q :: (takeUnits plain left).1,
          (takeUnits plain left).2)) ∧
      (∀ plain, (¬ ∃ inner left, Closes q rest inner left) →
        takeUnits plain (q :: rest) = ([], q :: rest)) ∧
      ∀ item left, Literal.item? (q :: rest) = some (item, left) ↔
        ∃ inner, item = q :: (inner ++ [q]) ∧ Closes q rest inner left) ∧
    (∀ (t : Terminal) cs, (t.pattern.leavings cs).head? =
      (t.take? cs).map Prod.snd) ∧
    (∀ cs : List Char, cs.getLast? ≠ some '\n' →
      ∀ content, unquote? cs = some content ↔
      ∃ q inner, isQuote q = true ∧ cs = q :: (inner ++ [q]) ∧
        Closes q (inner ++ [q]) inner [] ∧ content = withoutEscapes inner) ∧
    ∀ q cs, unescape (escape q cs) = cs := by
  refine ⟨fun q rest hq => ⟨fun left => mem_leavings_quoted_iff hq,
    length_leavings_quoted_le hq rest,
    fun plain inner left h => ?_, fun plain => takeUnits_not_closed plain hq,
    fun item left => item?_quote_iff hq⟩, head?_leavings_pattern,
    fun cs hend content => unquote?_eq_some_iff_closes hend, unescape_escape⟩
  exact takeUnits_quoted hq ((closeQuote?_eq_some_iff hq).2 h)

/-- Behind an escaped quote and an escaped backslash the next quote closes, and
not the last. -/
theorem quoted_stretches_escaped :
    isQuote '"' = true ∧
      " ; \"".toList ∈ quoted.leavings ('"' :: "\\\"\\\\\" ; \"".toList) ∧
      (quoted.leavings ('"' :: "\\\"\\\\\" ; \"".toList)).length ≤ 1 ∧
      Literal.item? ('"' :: "\\\"\\\\\" ; \"".toList) =
        some ("\"\\\"\\\\\"".toList, " ; \"".toList) ∧
      "'it\\'s'".toList.getLast? ≠ some '\n' ∧
      unquote? "'it\\'s'".toList = some "it's".toList := by
  have hquote : isQuote '"' = true := rfl
  have hcloses : Closes '"' "\\\"\\\\\" ; \"".toList "\\\"\\\\".toList
      " ; \"".toList := (closeQuote?_eq_some_iff hquote).1 (by decide)
  have hwhole : Closes '\'' ("it\\'s".toList ++ ['\'']) "it\\'s".toList [] :=
    (closeQuote?_eq_some_iff rfl).1 (by decide)
  have hend : "'it\\'s'".toList.getLast? ≠ some '\n' := by decide
  obtain ⟨hmem, hone, -, -, hitem⟩ :=
    quoted_stretches.1 _ "\\\"\\\\\" ; \"".toList hquote
  refine ⟨hquote, (hmem _).2 ⟨_, hcloses⟩, hone,
    (hitem _ _).2 ⟨_, by decide, hcloses⟩, hend, ?_⟩
  exact (quoted_stretches.2.2.1 _ hend _).2 ⟨'\'', _, rfl,
    by decide, hwhole, by decide⟩

end SheetBinding.Grammar
