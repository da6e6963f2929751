import SheetBinding.Proofs.Format.Template

/-!
# Text around a value

Any text can be written in a template: with its braces doubled it comes out as
it was, whatever stands on either side (`expandWith_doubled`). A field that
gives the number of the value and nothing else comes out as the value is written
without a format (`expandWith_value`). So pieces of text with such fields
between them are rendered as the pieces with the value between them
(`render_templateOf`).
-/

namespace SheetBinding.Format

/-- A text as a template spells it. -/
def doubled (cs : List Char) : List Char :=
  cs.flatMap fun c => if c == '{' || c == '}' then [c, c] else [c]

/-- The template that has the value between pieces of text. -/
def templateOf (pieces : List (List Char)) : List Char :=
  "{0}".toList.intercalate (pieces.map doubled)

theorem templateOf_cons (first : List Char) {rest : List (List Char)}
    (h : rest ≠ []) :
    templateOf (first :: rest) =
      doubled first ++ '{' :: '0' :: '}' :: templateOf rest := by
  rw [templateOf, List.map_cons,
    List.intercalate_cons_of_ne_nil (by simpa using h), List.append_assoc]
  rfl

section

variable {expandSpec : Numbering → List Char → Expansion} {value : Scalar}
  {numbering : Numbering}

theorem expandWith_doubled (cs more : List Char) :
    expandWith expandSpec value numbering (doubled cs ++ more) =
      (expandWith expandSpec value numbering more).after cs := by
  induction cs with
  | nil => exact (Expansion.after_nil _).symm
  | cons c rest ih =>
      rw [doubled, List.flatMap_cons, ← doubled, List.append_assoc]
      by_cases hopen : c = '{'
      · subst hopen
        show expandWith _ _ _ ('{' :: '{' :: (doubled rest ++ more)) = _
        rw [expandWith_open, ih, Expansion.after_after]
        rfl
      by_cases hclose : c = '}'
      · subst hclose
        show expandWith _ _ _ ('}' :: '}' :: (doubled rest ++ more)) = _
        rw [expandWith_close, ih, Expansion.after_after]
        rfl
      · rw [if_neg (by simp [hopen, hclose]), List.singleton_append,
          expandWith_plain hopen hclose, ih, Expansion.after_after]
        rfl

theorem expandField_value (hvalue : value ≠ .null)
    (hcount : ∀ n, numbering ≠ .automatic n) :
    expandField expandSpec value numbering ⟨['0'], none, []⟩ =
      .ok (value.plainText.toList, .manual) := by
  have hplain : (Subject.value value).plainText = value.plainText.toList := by
    cases value <;> first | rfl | exact absurd rfl hvalue
  cases numbering with
  | automatic n => exact absurd rfl (hcount n)
  | undecided | manual =>
      show Except.ok ((Subject.value value).plainText, Numbering.manual) = _
      rw [hplain]

theorem expandWith_value (hvalue : value ≠ .null)
    (hcount : ∀ n, numbering ≠ .automatic n) (more : List Char) :
    expandWith expandSpec value numbering ('{' :: '0' :: '}' :: more) =
      (expandWith expandSpec value .manual more).after
        value.plainText.toList := by
  have htake : takeField? ('0' :: '}' :: more) =
      some (⟨['0'], none, []⟩, more) := by
    rfl
  rw [expandWith_field htake, expandField_value hvalue hcount]

theorem exists_expandWith_templateOf (hvalue : value ≠ .null)
    (hcount : ∀ n, numbering ≠ .automatic n) (pieces : List (List Char)) :
    ∃ after, expandWith expandSpec value numbering (templateOf pieces) =
      .ok (value.plainText.toList.intercalate pieces, after) := by
  induction pieces generalizing numbering with
  | nil => exact ⟨numbering, expandWith_nil⟩
  | cons first rest ih =>
      by_cases hrest : rest = []
      · subst hrest
        have hfirst : expandWith expandSpec value numbering (doubled first ++
            []) = _ := expandWith_doubled first []
        rw [List.append_nil, expandWith_nil, Expansion.after_ok,
          List.append_nil] at hfirst
        refine ⟨numbering, ?_⟩
        rw [templateOf, List.map_singleton, List.intercalate_singleton, hfirst,
          List.intercalate_singleton]
      · have hmanual : ∀ n, Numbering.manual ≠ .automatic n := fun _ => nofun
        obtain ⟨after, hafter⟩ := ih hmanual
        refine ⟨after, ?_⟩
        rw [templateOf_cons first hrest, expandWith_doubled,
          expandWith_value hvalue hcount, hafter, Expansion.after_ok,
          Expansion.after_ok, List.intercalate_cons_of_ne_nil hrest,
          List.append_assoc]

end

/-- Pieces of text with a value between them. -/
theorem render_templateOf {value : Scalar} (hvalue : value ≠ .null)
    {pieces : List (List Char)} (hpieces : 2 ≤ pieces.length) :
    value.render (some (String.ofList (templateOf pieces))) =
      .ok (String.ofList (value.plainText.toList.intercalate pieces)) := by
  have hopen : (templateOf pieces).contains '{' = true := by
    match pieces with
    | first :: second :: rest =>
        rw [templateOf_cons first (List.cons_ne_nil _ _)]
        simp
  have hcount : ∀ n, Numbering.undecided ≠ .automatic n := fun _ => nofun
  obtain ⟨after, hafter⟩ : ∃ after,
      expandWith (expandSpec value) value .undecided (templateOf pieces) =
      .ok (_, after) := exists_expandWith_templateOf hvalue hcount pieces
  simp only [Scalar.render, String.toList_ofList, hopen, if_true,
    expand, hafter]
  rfl

end SheetBinding.Format
