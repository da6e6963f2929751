import SheetBinding.Proofs.Sheet.RoundTrip

/-!
# Which rules survive being printed

A rule need not have been read. It can be made of any selector that compiles and
any names and values at all, and printing writes them between the delimiters
just as they are; a value with a semicolon in it, or a name with a blank, is
then cut somewhere else when the text is read.

`read_toText_iff` says when nothing of the kind happens: when each part is a
text of its terminal's language and has no blanks at its ends. That this is
enough is the round trip of sheets over again. That it is needed takes no look
at where the wrong cuts fall. Whatever the printed text is read as, its parts
were cut out of a text of the grammar, so they are of that kind; and if they are
the parts that were printed, then these are too.
-/

namespace SheetBinding

open Grammar Text

theorem Selector.compile_trimmed (s : String) :
    Selector.compile (trimmed s) = Selector.compile s := by
  rw [Selector.compile, trimmed_trimmed, Selector.compile]

namespace Rule

/-- The rule of a block is also the rule of its selector with blanks around
it. -/
theorem plan_trimmed (selector : String) (pairs : List (String × String)) :
    plan (trimmed selector) pairs = plan selector pairs := by
  rw [plan, Selector.compile_trimmed, plan]

section Planned

variable {selector : String} {pairs : List (String × String)} {r : Rule}

theorem block_eq_of_plan (h : plan selector pairs = .ok r) :
    r.block = ⟨trimmed selector, pairs⟩ := by
  rw [← plan_trimmed] at h
  exact block_of_plan (b := ⟨trimmed selector, pairs⟩) h
    (trimmed_trimmed selector)

/-- A rule whose block can be written as it is comes back, alone. -/
theorem read_toText_of_plain (h : plan selector pairs = .ok r)
    (hplain : PlainBlock r.block) :
    Rule.read r.toText = .ok r ∧ Sheet.read r.toText = .ok ⟨[r]⟩ := by
  obtain ⟨cs, hcs, htext⟩ := exists_blockText hplain
  have htrim : trim r.toText.toList = cs := by
    rw [htext]
    exact (SheetText.single hcs).trim_append (by simp) (.cons rfl gap_nil)
  have hplan : plan r.block.selector r.block.settings = .ok r := by
    rw [block_eq_of_plan h, plan_trimmed, h]
  rw [← htrim] at hcs
  constructor
  · exact read_eq_ok_iff.2 ⟨r.block, hcs, hplan⟩
  · rw [Sheet.read_of_sheetText (.single hcs), Sheet.planAll, hplan]
    rfl

/-- What a text is read as can be written as it is. -/
theorem plain_of_read {s : String} (h : Rule.read s = .ok r) :
    PlainBlock r.block := by
  obtain ⟨b, hb, hplan⟩ := read_eq_ok_iff.1 h
  rw [block_of_plan hplan hb.plain.trimmed_selector]
  exact hb.plain

theorem plainBlock_iff :
    PlainBlock ⟨trimmed selector, pairs⟩ ↔
      Terminal.selector.Language (trimmed selector).toList ∧
        ∀ pair ∈ pairs, Terminal.name.Language pair.1.toList ∧
          Terminal.value.Language pair.2.toList ∧ trimmed pair.2 = pair.2 := by
  constructor
  · rintro ⟨hselector, -, hpairs⟩
    exact ⟨hselector, fun pair hpair =>
      ⟨(hpairs pair hpair).name, (hpairs pair hpair).value,
        (hpairs pair hpair).trimmed_value⟩⟩
  · rintro ⟨hselector, hpairs⟩
    refine ⟨hselector, trimmed_trimmed selector, fun pair hpair => ?_⟩
    obtain ⟨hname, hvalue, htrim⟩ := hpairs pair hpair
    exact ⟨hname, hvalue, htrim⟩

/-- A rule, when it is printed and read again, has the same selector and the
same settings just when each of its parts is a text of its terminal's language
without blanks at its ends. It is then the same rule, and nothing else is in its
text: read as a sheet, it is the sheet of that one rule. -/
theorem read_toText_iff (h : plan selector pairs = .ok r) :
    ((∃ again, Rule.read r.toText = .ok again ∧
        again.selector.text = r.selector.text ∧
        again.settings.pairs = pairs) ↔
      Terminal.selector.Language (trimmed selector).toList ∧
        ∀ pair ∈ pairs, Terminal.name.Language pair.1.toList ∧
          Terminal.value.Language pair.2.toList ∧ trimmed pair.2 = pair.2) ∧
    ∀ again, Rule.read r.toText = .ok again →
      again.selector.text = r.selector.text →
      again.settings.pairs = pairs →
        again = r ∧ Sheet.read r.toText = .ok ⟨[r]⟩ := by
  have hblock := block_eq_of_plan h
  have hsettings : r.settings.pairs = pairs := congrArg Block.settings hblock
  have hplain : ∀ again, Rule.read r.toText = .ok again →
      again.selector.text = r.selector.text → again.settings.pairs = pairs →
      PlainBlock r.block := by
    intro again hread hselector hpairs
    have hsame : again.block = r.block := by
      rw [block, block, hselector, hpairs, hsettings]
    rw [← hsame]
    exact plain_of_read hread
  refine ⟨⟨?_, fun hparts => ?_⟩, fun again hread hselector hpairs => ?_⟩
  · rintro ⟨again, hread, hselector, hpairs⟩
    have := hplain again hread hselector hpairs
    rw [hblock] at this
    exact plainBlock_iff.1 this
  · have hread := read_toText_of_plain h (hblock ▸ plainBlock_iff.2 hparts)
    exact ⟨r, hread.1, rfl, hsettings⟩
  · have hread' := read_toText_of_plain h (hplain again hread hselector hpairs)
    rw [hread'.1] at hread
    exact ⟨(Except.ok.inj hread).symm, hread'.2⟩

end Planned

/-- A value that would be read as two settings. -/
def smuggledValue : String :=
  "1; b: 2"

theorem not_language_smuggledValue :
    ¬ Terminal.value.Language smuggledValue.toList := by
  rintro ⟨hunits, -⟩
  have htaken := hunits.prefix_takeUnits
    (fun c => isQuote_of_isValueChar) List.prefix_rfl
  exact absurd htaken (by decide +kernel)

/-- The rule with that value can be made, and is not what its text is read
as. -/
theorem read_toText_smuggled :
    ∃ r, plan "p" [("a", smuggledValue)] = .ok r ∧
      ¬ ∃ again, Rule.read r.toText = .ok again ∧
        again.selector.text = r.selector.text ∧
        again.settings.pairs = [("a", smuggledValue)] := by
  obtain ⟨r, hplan⟩ := exists_ok_of_toBool
    (by decide +kernel : (plan "p" [("a", smuggledValue)]).toBool = true)
  refine ⟨r, hplan, fun hsame => ?_⟩
  have hparts := (read_toText_iff hplan).1.1 hsame
  exact not_language_smuggledValue (hparts.2 _ (List.mem_singleton_self _)).2.1

end Rule

end SheetBinding
