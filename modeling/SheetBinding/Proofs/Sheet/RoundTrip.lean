import SheetBinding.Proofs.Grammar.Reading
import SheetBinding.Proofs.Rule.Folding
import SheetBinding.Sheet

/-!
# Printing a sheet and reading it again

A sheet is printed by writing its selectors, names and values between
delimiters, just as they are, with nothing quoted. That is safe only because of
where they come from: they were read, and so each is a text of its terminal's
language, and still is after trimming (`IsText.trimEnd`). A semicolon in a value
stands inside quotes, and so does a brace in a selector.

So a printed block is a text of the grammar, and what it says is the block
itself. The rest is done by the equivalence of the grammar and the reader:
`read_toText` finds the printed sheet to be a text of the same blocks, hence to
be read as the same blocks, of which the same rules are made.
-/

namespace SheetBinding

open Grammar Text

/-! ## What was read can be written -/

namespace Grammar

/-- A setting that can be written as it is. -/
structure PlainSetting (pair : String × String) : Prop where
  name : IsName pair.1.toList
  value : IsText isValueChar pair.2.toList
  trimmed_value : trimmed pair.2 = pair.2

/-- A block that can be written as it is. -/
structure PlainBlock (b : Block) : Prop where
  selector : IsText isSelectorChar b.selector.toList
  trimmed_selector : trimmed b.selector = b.selector
  settings : ∀ pair ∈ b.settings, PlainSetting pair

theorem IsText.trimmed {plain : Char → Bool} {s : List Char}
    (h : IsText plain s) :
    IsText plain (trimmed (String.ofList s)).toList := by
  rw [Text.trimmed, String.toList_ofList, String.toList_ofList, h.trim_eq]
  exact h.trimEnd

theorem SettingText.plain {pair : String × String} {cs : List Char}
    (h : SettingText pair cs) :
    PlainSetting pair := by
  obtain ⟨n, w₁, w₂, v, w₃, hn, hv, -, -, -, -, rfl⟩ := h
  exact ⟨by rwa [String.toList_ofList], hv.trimmed, trimmed_trimmed _⟩

theorem SettingsText.plain {pairs : List (String × String)} {cs : List Char}
    (h : SettingsText pairs cs) : ∀ pair ∈ pairs, PlainSetting pair := by
  induction h with
  | nil =>
      intro pair hpair
      cases hpair
  | cons hcs _ _ ih => exact List.forall_mem_cons.2 ⟨hcs.plain, ih⟩

theorem BlockText.plain {b : Block} {cs : List Char} (h : BlockText b cs) :
    PlainBlock b := by
  obtain ⟨s, w₁, w₂, body, hs, -, -, hbody, -, hselector⟩ := h
  refine ⟨?_, ?_, hbody.plain⟩
  · rw [hselector]
    exact hs.trimmed
  · rw [hselector, trimmed_trimmed]

theorem SheetText.plain {bs : List Block} {cs : List Char}
    (h : SheetText bs cs) :
    ∀ b ∈ bs, PlainBlock b := by
  induction h with
  | nil =>
      intro b hb
      cases hb
  | single hcs => exact List.forall_mem_cons.2 ⟨hcs.plain, by simp⟩
  | cons hcs _ _ ih => exact List.forall_mem_cons.2 ⟨hcs.plain, ih⟩

end Grammar

/-! ## What is printed is a text of the grammar -/

theorem exists_settingText {pair : String × String} (h : PlainSetting pair) :
    ∃ cs, SettingText pair cs ∧
      (Rule.settingLine pair).toList = ' ' :: ' ' :: (cs ++ ['\n']) := by
  refine ⟨_, ⟨pair.1.toList, [], [' '], pair.2.toList, [], h.name, h.value,
    gap_nil, .cons rfl gap_nil, gap_nil, rfl, ?_⟩, ?_⟩
  · rw [String.ofList_toList, String.ofList_toList, h.trimmed_value]
  · simp [Rule.settingLine, String.toList_append]

theorem exists_settingsText {pairs : List (String × String)}
    (h : ∀ pair ∈ pairs, PlainSetting pair) :
    ∃ w body, Gap w ∧ SettingsText pairs body ∧
      (String.join (pairs.map Rule.settingLine)).toList = w ++ body := by
  induction pairs with
  | nil => exact ⟨[], [], gap_nil, .nil, rfl⟩
  | cons pair rest ih =>
      obtain ⟨hpair, hrest⟩ := List.forall_mem_cons.1 h
      obtain ⟨cs, hcs, hline⟩ := exists_settingText hpair
      obtain ⟨w, body, hw, hbody, hlines⟩ := ih hrest
      refine ⟨[' ', ' '], cs ++ (('\n' :: w) ++ body),
        .cons rfl (.cons rfl gap_nil), .cons hcs (.cons rfl hw) hbody, ?_⟩
      rw [List.map_cons, String.join_cons, String.toList_append, hline, hlines]
      simp

namespace Rule

/-- The block that a rule is printed as. -/
def block (r : Rule) : Block :=
  ⟨r.selector.text, r.settings.pairs⟩

theorem exists_blockText {r : Rule} (h : PlainBlock r.block) :
    ∃ cs, BlockText r.block cs ∧ r.toText.toList = cs ++ ['\n'] := by
  obtain ⟨w, body, hw, hbody, hlines⟩ := exists_settingsText h.settings
  refine ⟨_, ⟨r.selector.text.toList, ['\n'], '\n' :: w, body, h.selector,
    .cons rfl gap_nil, .cons rfl hw, hbody, rfl, ?_⟩, ?_⟩
  · rw [String.ofList_toList]
    exact h.trimmed_selector.symm
  · simp only [toText, String.toList_append]
    rw [show r.settings.pairs = r.block.settings from rfl, hlines]
    simp

end Rule

theorem exists_sheetText {rules : List Rule} (hne : rules ≠ [])
    (h : ∀ r ∈ rules, PlainBlock r.block) :
    ∃ cs, SheetText (rules.map Rule.block) cs ∧
      (Sheet.mk rules).toText.toList = cs ++ ['\n'] := by
  induction rules with
  | nil => exact absurd rfl hne
  | cons r rest ih =>
      obtain ⟨hr, hrest⟩ := List.forall_mem_cons.1 h
      obtain ⟨cs, hcs, htext⟩ := Rule.exists_blockText hr
      cases rest with
      | nil =>
          refine ⟨cs, .single hcs, ?_⟩
          rw [Sheet.toText, List.map_singleton, String.intercalate_singleton,
            htext]
      | cons next rest =>
          obtain ⟨text, hsheet, htexts⟩ := ih (by simp) hrest
          have hgap : Gap ['\n', '\n'] := .cons rfl (.cons rfl gap_nil)
          refine ⟨cs ++ (['\n', '\n'] ++ text), .cons hcs hgap hsheet, ?_⟩
          rw [Sheet.toText] at htexts ⊢
          rw [List.map_cons, List.map_cons, String.intercalate_cons_cons,
            String.toList_append, String.toList_append, htext,
            ← List.map_cons, htexts]
          simp

theorem Grammar.SheetText.exists_concat {bs : List Block} {cs : List Char}
    (h : SheetText bs cs) (hne : bs ≠ []) :
    (∃ c rest, cs = c :: rest ∧ isBlank c = false) ∧
      ∃ front, cs = front ++ ['\x7d'] := by
  have hblock : ∀ {b cs}, BlockText b cs → ∃ front, cs = front ++ ['\x7d'] := by
    rintro b cs ⟨s, w₁, w₂, body, -, -, -, -, rfl, -⟩
    exact ⟨s ++ (w₁ ++ '\x7b' :: (w₂ ++ body)), by simp⟩
  induction h with
  | nil => exact absurd rfl hne
  | single hcs => exact ⟨hcs.exists_cons, hblock hcs⟩
  | @cons b next bs cs w rest hcs _ _ ih =>
      obtain ⟨c, cs, rfl, hc⟩ := hcs.exists_cons
      obtain ⟨front, rfl⟩ := (ih (by simp)).2
      exact ⟨⟨c, _, rfl, hc⟩, (c :: cs) ++ (w ++ front), by simp⟩

/-- Trimming the text of a sheet takes the gap behind its last block away, and
nothing more. -/
theorem Grammar.SheetText.trim_append {bs : List Block} {cs v : List Char}
    (h : SheetText bs cs) (hne : bs ≠ []) (hv : Gap v) :
    trim (cs ++ v) = cs := by
  obtain ⟨⟨c, rest, rfl, hc⟩, front, hfront⟩ := h.exists_concat hne
  have hend : trimEnd ((c :: rest) ++ v) = c :: rest := by
    rw [trimEnd_append_blank fun d hd => isBlank_of_isGap (hv d hd), hfront]
    exact trimEnd_concat (by decide) front
  rw [List.cons_append, trim_cons hc, ← hend]
  exact (trimEnd_append_cons hc [] (rest ++ v)).symm

/-- The text of a block has no blanks at its ends. -/
theorem Grammar.BlockText.trim_eq {b : Block} {cs : List Char}
    (h : BlockText b cs) :
    trim cs = cs := by
  have := (SheetText.single h).trim_append (by simp) gap_nil
  rwa [List.append_nil] at this

/-! ## What is read again -/

theorem Rule.read_of_blockText {s : String} {b : Block}
    (h : BlockText b (trim s.toList)) :
    Rule.read s = (Rule.plan b.selector b.settings).mapError .rule := by
  rw [Rule.read, oneBlock_trim_iff.2 h]

theorem Rule.read_eq_ok_iff {s : String} {r : Rule} :
    Rule.read s = .ok r ↔
      ∃ b, BlockText b (trim s.toList) ∧
        Rule.plan b.selector b.settings = .ok r := by
  constructor
  · intro h
    cases hb : oneBlock (trim s.toList) with
    | error stop =>
        rw [Rule.read, hb] at h
        cases h
    | ok b =>
        have htext := oneBlock_trim_iff.1 hb
        rw [Rule.read_of_blockText htext] at h
        exact ⟨b, htext, mapError_eq_ok_iff.1 h⟩
  · rintro ⟨b, hb, hplan⟩
    rw [Rule.read_of_blockText hb, hplan]
    rfl

theorem Sheet.read_of_sheetText {s : String} {bs : List Block}
    (h : SheetText bs (trim s.toList)) :
    Sheet.read s = ((Sheet.planAll bs).map Sheet.mk).mapError .rule := by
  rw [Sheet.read, sheetBlocks_trim_iff.2 h]

theorem Settings.readPair_eq_ok_iff {s : String} {pair : String × String} :
    Settings.readPair s = .ok pair ↔ SettingText pair (trim s.toList) := by
  rw [← oneSetting_trim_iff, Settings.readPair]
  split
  · next h => simp [h]
  · next h => simp [h]

/-- A rule is made of a block with the selector and the settings that it is
printed with. -/
theorem Rule.block_of_plan {b : Block} {r : Rule}
    (h : Rule.plan b.selector b.settings = .ok r)
    (hb : trimmed b.selector = b.selector) : r.block = b := by
  obtain ⟨hselector, hpairs, -⟩ := Rule.plan_eq_ok_iff.1 h
  rw [Rule.block, Selector.text_of_compile hselector, hb, hpairs]

theorem Sheet.map_block_of_planAll {bs : List Block} {rules : List Rule}
    (h : Sheet.planAll bs = .ok rules) (hbs : ∀ b ∈ bs, trimmed b.selector =
      b.selector) :
    rules.map Rule.block = bs := by
  induction bs generalizing rules with
  | nil =>
      cases h
      rfl
  | cons b rest ih =>
      obtain ⟨hb, hrest⟩ := List.forall_mem_cons.1 hbs
      rw [Sheet.planAll] at h
      split at h
      · cases h
      · next r hplan =>
          obtain ⟨others, hothers, rfl⟩ := map_eq_ok_iff.1 h
          rw [List.map_cons, Rule.block_of_plan hplan hb, ih hothers hrest]

theorem Sheet.read_eq_ok_iff {s : String} {sheet : Sheet} :
    Sheet.read s = .ok sheet ↔
      ∃ bs, sheetBlocks (trim s.toList) = .ok bs ∧
        Sheet.planAll bs = .ok sheet.rules := by
  unfold Sheet.read
  dsimp only
  constructor
  · intro h
    split at h
    · cases h
    · next bs hbs =>
        obtain ⟨rules, hrules, rfl⟩ := map_eq_ok_iff.1 (mapError_eq_ok_iff.1 h)
        exact ⟨bs, hbs, hrules⟩
  · rintro ⟨bs, hbs, hrules⟩
    rw [hbs]
    exact mapError_eq_ok_iff.2 (map_eq_ok_iff.2 ⟨sheet.rules, hrules, rfl⟩)

/-! ## Equality of rules -/

theorem Sheet.same_self (sheet : Sheet) : sheet.same sheet = true := by
  rw [Sheet.same]
  induction sheet.rules with
  | nil => rfl
  | cons r rest ih => rw [Sheet.sameRules, Rule.same_self, ih, Bool.and_self]

/-- A sheet that was read, when it is printed and read again, is the same sheet,
down to the spelling and the order of its settings; and so it is printed the
same again. -/
theorem Sheet.read_toText {s : String} {sheet : Sheet}
    (h : Sheet.read s = .ok sheet) :
    Sheet.read sheet.toText = .ok sheet ∧ sheet.same sheet = true := by
  obtain ⟨bs, hbs, hrules⟩ := Sheet.read_eq_ok_iff.1 h
  have hplain := (sheetBlocks_trim_iff.1 hbs).plain
  have hblocks : sheet.rules.map Rule.block = bs :=
    Sheet.map_block_of_planAll hrules fun b hb => (hplain b hb).trimmed_selector
  refine ⟨Sheet.read_eq_ok_iff.2 ⟨bs, ?_, hrules⟩, sheet.same_self⟩
  by_cases hne : sheet.rules = []
  · rw [hne, List.map_nil] at hblocks
    rw [← hblocks, Sheet.toText, hne]
    exact sheetBlocks_trim_iff.2 .nil
  · obtain ⟨cs, hcs, htext⟩ := exists_sheetText hne fun r hr =>
      hplain r.block (hblocks ▸ List.mem_map_of_mem hr)
    have htrim : trim sheet.toText.toList = cs := by
      rw [htext]
      exact hcs.trim_append (by simpa using hne) (.cons rfl gap_nil)
    rw [hblocks] at hcs
    exact sheetBlocks_trim_iff.2 (by rwa [htrim])

/-- A sheet whose delimiters also stand inside quotes. -/
def quotedSheet : String :=
  "p[a='\x7b']\x7bname:'x;' ;\x7d\n\nq\x7b\x7d"

theorem Sheet.read_toText_quoted :
    ∃ sheet, Sheet.read quotedSheet = .ok sheet ∧
      Sheet.read sheet.toText = .ok sheet ∧ sheet.same sheet = true := by
  cases h : Sheet.read quotedSheet with
  | error e =>
      have hok : (Sheet.read quotedSheet).toBool = true := by decide +kernel
      rw [h] at hok
      cases hok
  | ok sheet => exact ⟨sheet, rfl, Sheet.read_toText h⟩

end SheetBinding
