import SheetBinding.Text.Quotation

/-!
# Quoted stretches

What may stand between two quotes is a language of its own: plain characters,
and backslashes each followed by any one character. `closeQuote?` decides it
from left to right. It answers with the quote that ends the first text of the
language, and there is no second one, because no text of the language goes on
past an unescaped quote.

Which quote that is can also be told place by place, without going through the
text: a place is escaped if a backslash stands before it that is not escaped
itself, and a stretch is closed by the first quote of its kind that is not
escaped (`closeQuote?_eq_some_iff`). The two descriptions meet in the language,
since shifting a place past a plain character, or past a backslash and the
character that it escapes, changes nothing about whether it is escaped.

Any text can be made one of the language by escaping it, and unescaping gives it
back.
-/

namespace SheetBinding.Text

/-- What may stand between two quotes of the kind `q`. -/
inductive Inner (q : Char) : List Char → Prop where
  | nil : Inner q []
  | escaped (c : Char) {rest : List Char} :
      Inner q rest → Inner q ('\\' :: c :: rest)
  | plain {c : Char} {rest : List Char} :
      c ≠ '\\' → c ≠ q → Inner q rest → Inner q (c :: rest)

theorem isQuote_iff {c : Char} : isQuote c = true ↔ c = '"' ∨ c = '\'' := by
  simp [isQuote]

theorem ne_backslash_of_isQuote {q : Char} (h : isQuote q = true) :
    q ≠ '\\' := by
  rintro rfl
  cases h

theorem closeQuote?_escaped (q c : Char) (rest : List Char) :
    closeQuote? q ('\\' :: c :: rest) =
      (closeQuote? q rest).map fun r => ('\\' :: c :: r.1, r.2) := by
  rw [closeQuote?]

theorem closeQuote?_cons {q c : Char} (hc : c ≠ '\\') (rest : List Char) :
    closeQuote? q (c :: rest) =
      if c == q then some ([], rest)
        else (closeQuote? q rest).map fun r => (c :: r.1, r.2) := by
  rw [closeQuote?.eq_def]
  split
  · next h => cases h
  · next h => cases h; exact absurd rfl hc
  · next h => cases h; exact absurd rfl hc
  · next h => cases h; rfl

/-- The first quote after a text of the language closes it. -/
theorem closeQuote?_append {q : Char} {inner : List Char}
    (hq : isQuote q = true) (h : Inner q inner) (rest : List Char) :
    closeQuote? q (inner ++ q :: rest) = some (inner, rest) := by
  induction h with
  | nil =>
      rw [List.nil_append, closeQuote?_cons (ne_backslash_of_isQuote hq),
        if_pos (by simp)]
  | escaped c _ ih =>
      rw [List.cons_append, List.cons_append, closeQuote?_escaped, ih]
      rfl
  | plain hne hnq _ ih =>
      rw [List.cons_append, closeQuote?_cons hne, if_neg (by simpa using hnq),
        ih]
      rfl

/-- A character that neither ends the text as a backslash nor escapes the next
is no backslash. -/
theorem ne_backslash_of_cases {c : Char} {cs : List Char}
    (hlast : c = '\\' → cs = [] → False)
    (hnext : ∀ d ds, c = '\\' → cs = d :: ds → False) : c ≠ '\\' := by
  rintro rfl
  cases cs with
  | nil => exact hlast rfl rfl
  | cons d ds => exact hnext d ds rfl rfl

theorem inner_of_closeQuote? {q : Char} {cs inner rest : List Char}
    (h : closeQuote? q cs = some (inner, rest)) : Inner q inner := by
  fun_induction closeQuote? q cs generalizing inner rest with
  | case1 => cases h
  | case2 => cases h
  | case3 c cs ih =>
      obtain ⟨⟨i, a⟩, hi, he⟩ := Option.map_eq_some_iff.1 h
      cases he
      exact .escaped c (ih hi)
  | case4 => cases h; exact .nil
  | case5 c cs hlast hnext hc ih =>
      obtain ⟨⟨i, a⟩, hi, he⟩ := Option.map_eq_some_iff.1 h
      cases he
      exact .plain (ne_backslash_of_cases hlast hnext)
        (by simpa using hc) (ih hi)

/-! ## Escaped places -/

/-- Whether a place is escaped: a backslash stands before it that is not escaped
itself. -/
def isEscaped (cs : List Char) : Nat → Bool
  | 0 => false
  | k + 1 => cs[k]? == some '\\' && !isEscaped cs k

theorem isEscaped_cons {c : Char} (hc : c ≠ '\\') (cs : List Char) (k : Nat) :
    isEscaped (c :: cs) (k + 1) = isEscaped cs k := by
  induction k with
  | zero => simp [isEscaped, hc]
  | succ k ih => rw [isEscaped, List.getElem?_cons_succ, ih, isEscaped]

theorem isEscaped_escaped (c : Char) (cs : List Char) (k : Nat) :
    isEscaped ('\\' :: c :: cs) (k + 2) = isEscaped cs k := by
  induction k with
  | zero => simp [isEscaped]
  | succ k ih =>
      rw [isEscaped, List.getElem?_cons_succ, List.getElem?_cons_succ, ih,
        isEscaped]

/-- The text after an opening quote `q` is closed by the first quote of that
kind which is not escaped: `inner` stands before it and `after` behind it. -/
structure Closes (q : Char) (cs inner after : List Char) : Prop where
  split : cs = inner ++ q :: after
  bare : isEscaped cs inner.length = false
  first : ∀ k < inner.length, cs[k]? = some q → isEscaped cs k = true

variable {q : Char} {cs inner after : List Char}

theorem closes_nil (q : Char) (after : List Char) :
    Closes q (q :: after) [] after where
  split := rfl
  bare := rfl
  first k hk := absurd hk (Nat.not_lt_zero k)

theorem closes_cons_iff {c : Char} (hc : c ≠ '\\') :
    Closes q (c :: cs) (c :: inner) after ↔
      c ≠ q ∧ Closes q cs inner after := by
  constructor
  · intro h
    refine ⟨fun he => ?_, (List.cons.inj h.split).2, ?_, fun k hk hq => ?_⟩
    · have := h.first 0 (Nat.zero_lt_succ _) (congrArg some he)
      cases this
    · rw [← isEscaped_cons hc]
      exact h.bare
    · rw [← isEscaped_cons hc]
      exact h.first (k + 1) (Nat.succ_lt_succ hk) hq
  · rintro ⟨hne, h⟩
    refine ⟨congrArg _ h.split, (isEscaped_cons hc cs _).trans h.bare,
      fun k hk hq => ?_⟩
    cases k with
    | zero => exact absurd (Option.some_inj.1 hq) hne
    | succ k =>
        rw [isEscaped_cons hc]
        exact h.first k (Nat.lt_of_succ_lt_succ hk) hq

theorem closes_escaped_iff {c : Char} (hq : q ≠ '\\') :
    Closes q ('\\' :: c :: cs) ('\\' :: c :: inner) after ↔
      Closes q cs inner after := by
  constructor
  · intro h
    refine ⟨(List.cons.inj (List.cons.inj h.split).2).2, ?_,
      fun k hk hget => ?_⟩
    · rw [← isEscaped_escaped c]
      exact h.bare
    · rw [← isEscaped_escaped c]
      exact h.first (k + 2) (Nat.add_lt_add_right hk 2) hget
  · intro h
    refine ⟨by rw [h.split]; rfl, (isEscaped_escaped c cs
      _).trans h.bare, fun k hk hget => ?_⟩
    match k with
    | 0 => exact absurd (Option.some_inj.1 hget).symm hq
    | 1 => rfl
    | k + 2 =>
        rw [isEscaped_escaped]
        exact h.first k (Nat.lt_of_add_lt_add_right hk) hget

theorem not_closes_backslash : ¬ Closes q cs ['\\'] after := by
  intro h
  have hbare := h.bare
  rw [h.split] at hbare
  cases hbare

/-- The text before the closing quote is one of the language, and each such text
is closed by the quote behind it. -/
theorem closes_iff (hq : isQuote q = true) :
    Closes q cs inner after ↔ Inner q inner ∧ cs = inner ++ q :: after := by
  have hbackslash := ne_backslash_of_isQuote hq
  constructor
  · intro h
    refine ⟨?_, h.split⟩
    fun_induction unescape inner generalizing cs with
    | case1 => exact .nil
    | case2 c rest ih =>
        obtain rfl := h.split
        exact .escaped c (ih ((closes_escaped_iff hbackslash).1 h))
    | case3 c rest hnot ih =>
        obtain rfl := h.split
        have hlast : c = '\\' → rest = [] → False := by
          rintro rfl rfl
          exact not_closes_backslash h
        have hc := ne_backslash_of_cases hlast hnot
        obtain ⟨hne, hrest⟩ := (closes_cons_iff hc).1 h
        exact .plain hc hne (ih hrest)
  · rintro ⟨h, rfl⟩
    induction h with
    | nil => exact closes_nil q after
    | escaped c _ ih => exact (closes_escaped_iff hbackslash).2 ih
    | plain hc hne _ ih => exact (closes_cons_iff hc).2 ⟨hne, ih⟩

theorem closeQuote?_eq_some_iff (hq : isQuote q = true) :
    closeQuote? q cs = some (inner, after) ↔ Closes q cs inner after := by
  rw [closes_iff hq]
  constructor
  · intro h
    exact ⟨inner_of_closeQuote? h, eq_of_closeQuote? h⟩
  · rintro ⟨h, rfl⟩
    exact closeQuote?_append hq h after

/-! ## Writing a quoted stretch -/

theorem inner_escape (q : Char) (cs : List Char) : Inner q (escape q cs) := by
  induction cs with
  | nil => exact .nil
  | cons c rest ih =>
      rw [escape]
      split
      · exact .escaped c ih
      · next h =>
          simp only [Bool.or_eq_true, beq_iff_eq, not_or] at h
          exact .plain h.1 h.2 ih

theorem unescape_cons {c : Char} (hc : c ≠ '\\') (rest : List Char) :
    unescape (c :: rest) = c :: unescape rest := by
  rw [unescape.eq_def]
  split
  · next h => cases h
  · next h => cases h; exact absurd rfl hc
  · next h => cases h; rfl

theorem unescape_escape (q : Char) (cs : List Char) :
    unescape (escape q cs) = cs := by
  induction cs with
  | nil => rfl
  | cons c rest ih =>
      rw [escape]
      split
      · rw [unescape, ih]
      · next h =>
          simp only [Bool.or_eq_true, beq_iff_eq, not_or] at h
          rw [unescape_cons h.1, ih]

theorem closeQuote?_enquote {q : Char} (hq : isQuote q = true)
    (cs rest : List Char) :
    closeQuote? q (escape q cs ++ q :: rest) = some (escape q cs, rest) :=
  closeQuote?_append hq (inner_escape q cs) rest

/-- What was put between quotes comes back. -/
theorem unquote?_enquote {q : Char} (hq : isQuote q = true) (cs : List Char) :
    unquote? (enquote q cs) = some cs := by
  rw [enquote, List.cons_append, unquote?, if_pos hq, closeQuote?_enquote hq]
  exact congrArg some (unescape_escape q cs)

/-- A text without the backslashes that escape what stands behind them. -/
def withoutEscapes (cs : List Char) : List Char :=
  (cs.zipIdx.filter fun place => !isEscaped cs (place.2 + 1)).map Prod.fst

theorem withoutEscapes_cons {c : Char} (hc : c ≠ '\\') (cs : List Char) :
    withoutEscapes (c :: cs) = c :: withoutEscapes cs := by
  have hkept : isEscaped (c :: cs) 1 = false := isEscaped_cons hc cs 0
  rw [withoutEscapes, List.zipIdx_cons,
    List.filter_cons_of_pos (by simp [hkept]), List.map_cons, List.zipIdx_succ,
    List.filter_map, List.map_map, withoutEscapes]
  simp only [Function.comp_def, isEscaped_cons hc]

theorem withoutEscapes_escaped (c : Char) (cs : List Char) :
    withoutEscapes ('\\' :: c :: cs) = c :: withoutEscapes cs := by
  have hdropped : isEscaped ('\\' :: c :: cs) 1 = true := rfl
  have hkept : isEscaped ('\\' :: c :: cs) 2 = false := isEscaped_escaped c cs 0
  rw [withoutEscapes, List.zipIdx_cons,
    List.filter_cons_of_neg (by simp [hdropped]), List.zipIdx_cons,
    List.filter_cons_of_pos (by simp [hkept]), List.map_cons, List.zipIdx_succ,
    List.zipIdx_succ, List.map_map, List.filter_map, List.map_map,
    withoutEscapes]
  simp only [Function.comp_def, isEscaped_escaped]

theorem unescape_eq_withoutEscapes (h : Inner q inner) :
    unescape inner = withoutEscapes inner := by
  induction h with
  | nil => rfl
  | escaped c _ ih => rw [unescape, ih, withoutEscapes_escaped]
  | plain hc _ _ ih => rw [unescape_cons hc, ih, withoutEscapes_cons hc]

/-- A text is unquoted if it is one quoted stretch, a line feed behind it being
let pass. -/
theorem unquote?_eq_some_iff {content : List Char} :
    unquote? cs = some content ↔ ∃ q inner, isQuote q = true ∧ Inner q inner ∧
      (cs = q :: (inner ++ [q]) ∨ cs = q :: (inner ++ [q, '\n'])) ∧
        content = unescape inner := by
  constructor
  · intro h
    cases cs with
    | nil => cases h
    | cons q rest =>
        rw [unquote?] at h
        split at h
        · next hq =>
            split at h
            · next inner hclose =>
                cases h
                exact ⟨q, inner, hq, inner_of_closeQuote? hclose,
                  .inl (congrArg _ (eq_of_closeQuote? hclose)), rfl⟩
            · next inner hclose =>
                cases h
                exact ⟨q, inner, hq, inner_of_closeQuote? hclose,
                  .inr (congrArg _ (eq_of_closeQuote? hclose)), rfl⟩
            · cases h
        · cases h
  · rintro ⟨q, inner, hq, hinner, rfl | rfl, rfl⟩
    · rw [unquote?, if_pos hq, closeQuote?_append hq hinner]
    · rw [unquote?, if_pos hq, closeQuote?_append hq hinner]
      rfl

theorem unquote?_cons {c : Char} (hc : isQuote c = false) (rest : List Char) :
    unquote? (c :: rest) = none := by
  rw [unquote?, hc]
  rfl

end SheetBinding.Text
