import SheetBinding.Proofs.Format.Pieces
import SheetBinding.Proofs.Rule.Folding
import SheetBinding.Proofs.Rule.Literals

/-!
# Text written into formats comes out

Text in the format of a rule is written three times over. Its braces are
doubled, since it stands in a template; the template is put between quotes and
escaped, since it may hold anything; and the quoted text is the value of a
setting among others, between the delimiters of a rule. Each reader on the way
back undoes what was written for it and hands on the rest unchanged. The rule is
cut at its own delimiters (`Rule.read_of_blockText`), the quotes are taken off
(`Rule.formatOf_enquote`), and the template is expanded
(`Format.render_templateOf`). `render_quoted_template` puts them together.
-/

namespace SheetBinding

open Grammar Text

namespace Rule

theorem formatOf_enquote {q : Char} (hq : isQuote q = true) (cs : List Char) :
    formatOf (String.ofList (enquote q cs)) = String.ofList cs := by
  have htrim := Literal.trim_literal hq (.text (String.ofList cs))
  rw [Scalar.literal_text, String.toList_ofList] at htrim
  rw [formatOf, String.toList_ofList, htrim, unquote?_enquote hq]
  rfl

/-- A quoted format is the text between the quotes, whatever other settings
there are. -/
theorem format_of_plan {selector name : String} {pairs : List (String × String)}
    {r : Rule} {q : Char} {cs : List Char} (hq : isQuote q = true)
    (h : plan selector pairs = .ok r)
    (hname : lowercase name = "binding-format")
    (hmem : (name, String.ofList (enquote q cs)) ∈ pairs) :
    r.format = some (String.ofList cs) := by
  obtain ⟨-, rfl, -, -, -, -, -, hformat⟩ := plan_eq_ok_iff.1 h
  have hlower : lowercase "binding-format" = "binding-format" := by
    decide +kernel
  have hget : r.settings.get? "binding-format" =
      some (String.ofList (enquote q cs)) := by
    rw [Settings.get?_eq_some_iff, hlower, ← hname, Settings.folded,
      List.mem_map]
    exact ⟨_, hmem, rfl⟩
  rw [hformat, planFormat, hget, Option.map_some, formatOf_enquote hq]

/-- A rule can have a format and nothing else. -/
theorem exists_plan_format (text : String) :
    ∃ r, plan "p" [("binding-format", text)] = .ok r := by
  have hnone : ∀ other ∈ knownSettings, "binding-format" ≠ other →
      (Settings.single "binding-format" text).get? other = none := fun other =>
    Settings.get?_single text (by decide)
  obtain ⟨r, hplan, -⟩ := exists_plan_of_usual
    (planSource_of_none (hnone _ (by decide) (by decide)))
    (planDefault_of_none (hnone _ (by decide) (by decide)))
    (hnone _ (by decide) (by decide)) (hnone _ (by decide) (by decide))
  exact ⟨r, hplan⟩

theorem exists_read_format {q : Char} (hq : isQuote q = true) (cs : List Char) :
    ∃ r, Rule.read (oneSettingText "binding-format"
      (String.ofList (enquote q cs))) = .ok r ∧
      r.format = some (String.ofList cs) := by
  have hname := isName_of_mem_knownSettings
    (by decide : "binding-format" ∈ knownSettings)
  have htext := Literal.isText_literal hq (.text (String.ofList cs))
  have htrim := Literal.trim_literal hq (.text (String.ofList cs))
  rw [Scalar.literal_text, String.toList_ofList] at htext htrim
  obtain ⟨r, hplan⟩ := exists_plan_format (String.ofList (enquote q cs))
  have hlower : lowercase "binding-format" = "binding-format" := by
    decide +kernel
  have hformat := format_of_plan hq hplan hlower (List.mem_singleton_self _)
  refine ⟨r, ?_, hformat⟩
  rw [read_oneSettingText (plainSetting hname htext htrim), hplan]
  rfl

end Rule

/-- Pieces of text with fields for a value between them, their braces doubled,
are the format of every rule that has them between quotes for its format, and
such a rule can be written. Rendering a value by this format puts it between the
pieces, as it is written without a format. -/
theorem render_quoted_template {q : Char} {value : Scalar}
    {pieces : List (List Char)} (hq : isQuote q = true) (hvalue : value ≠ .null)
    (hpieces : 2 ≤ pieces.length) :
    (∃ r, Rule.read (oneSettingText "binding-format"
        (String.ofList (enquote q (Format.templateOf pieces)))) = .ok r ∧
      r.format = some (String.ofList (Format.templateOf pieces))) ∧
    (∀ (block : Block) (text name : String) (r : Rule),
      BlockText block (trim text.toList) →
      Rule.read text = .ok r → lowercase name = "binding-format" →
      (name, String.ofList (enquote q (Format.templateOf pieces))) ∈
        block.settings →
      r.format = some (String.ofList (Format.templateOf pieces))) ∧
    ∃ plain, value.render none = .ok plain ∧
      value.render (some (String.ofList (Format.templateOf pieces))) =
        .ok (String.ofList (plain.toList.intercalate pieces)) := by
  refine ⟨Rule.exists_read_format hq _, ?_, value.plainText, rfl,
    Format.render_templateOf hvalue hpieces⟩
  intro block text name r hblock hread hname hmem
  rw [Rule.read_of_blockText hblock, mapError_eq_ok_iff] at hread
  exact Rule.format_of_plan hq hread hname hmem

/-- Pieces that begin and end with braces, quotes and backslashes. -/
def roughPieces : List (List Char) :=
  ["\x7b\\".toList, "\x7d'\"\x7b".toList, [], "\x7d;".toList]

theorem render_quoted_template_rough :
    isQuote '"' = true ∧ Scalar.int64 5000000000 ≠ .null ∧
      2 ≤ roughPieces.length ∧
      (∃ r, Rule.read (oneSettingText "binding-format"
          (String.ofList (enquote '"' (Format.templateOf roughPieces)))) =
            .ok r ∧
        r.format = some (String.ofList (Format.templateOf roughPieces))) ∧
      ∃ plain, (Scalar.int64 5000000000).render none = .ok plain ∧
        (Scalar.int64 5000000000).render
          (some (String.ofList (Format.templateOf roughPieces))) =
          .ok (String.ofList (plain.toList.intercalate roughPieces)) := by
  have hq : isQuote '"' = true := by decide
  have hvalue : Scalar.int64 5000000000 ≠ .null := nofun
  have hpieces : 2 ≤ roughPieces.length := by decide
  obtain ⟨hread, -, hrender⟩ := render_quoted_template hq hvalue hpieces
  exact ⟨hq, hvalue, hpieces, hread, hrender⟩

example : String.ofList (enquote '"' (Format.templateOf roughPieces)) =
    "\"\x7b\x7b\\\\\x7b0\x7d\x7d\x7d'\\\"\x7b\x7b\x7b0\x7d" ++
      "\x7b0\x7d\x7d\x7d;\"" := by
  decide +kernel

end SheetBinding
