import SheetBinding.Proofs.Sheet.RoundTrip
import SheetBinding.Proofs.Sheet.Tokens

/-!
# What has been read can be completed

The walk never reads a token that leads nowhere: up to the place where it halts,
every text can be completed to one that is read without an error.
`Reading.Continues` says which texts may stand behind the last token. It is made
so that one token less at the back of what has been read is one token more at
the front of what may follow (`Continues.token`), and so the whole of what has
been read is moved over, token by token (`Continues.of_steps`).

Behind any token something may follow, because from each there is a way to the
end: the rest of the setting, if there is one, and a brace (`open_all`).
-/

namespace SheetBinding

open Grammar Text

/-- Trimming the text of a setting takes the gap behind it away, and nothing
more. -/
theorem Grammar.SettingText.trim_append {pair : String × String}
    {cs v : List Char} (h : SettingText pair cs) (hv : Gap v) :
    trim (cs ++ v) = cs := by
  obtain ⟨c, rest, hcons, hc⟩ := h.exists_cons
  obtain ⟨n, w₁, w₂, u, w₃, -, -, -, -, -, hcs, -⟩ := h
  have hlast : cs = (n ++ (w₁ ++ ':' :: (w₂ ++ (u ++ w₃)))) ++ [';'] := by
    rw [hcs]; simp
  have hend : trimEnd (cs ++ v) = cs := by
    rw [trimEnd_append_blank fun d hd => isBlank_of_isGap (hv d hd), hlast]
    exact trimEnd_concat (by decide) _
  rw [hcons] at hend ⊢
  rw [List.cons_append, trim_cons (isBlank_of_isNameChar hc), ← hend]
  exact (trimEnd_append_cons (isBlank_of_isNameChar hc) [] (rest ++ v)).symm

namespace Reading

/-- The texts of the grammar that a reading is for. -/
def Shape : Reading → List Char → Prop
  | sheet, cs => ∃ bs, SheetText bs cs
  | rule, cs => ∃ b, BlockText b cs
  | setting, cs => ∃ pair, SettingText pair cs

/-- A text of the grammar with gaps at its ends. -/
def Whole (r : Reading) (cs : List Char) : Prop :=
  ∃ w body v, Gap w ∧ r.Shape body ∧ Gap v ∧ cs = w ++ (body ++ v)

/-- A token of some kind, and then something else. -/
def Next (kind : Terminal) (More : List Char → Prop) (cs : List Char) : Prop :=
  ∃ w s rest, Gap w ∧ kind.Language s ∧ More rest ∧ cs = w ++ (s ++ rest)

/-- What may stand behind a block. A single setting is in no block, so nothing
is asked. -/
def AfterBlock : Reading → List Char → Prop
  | sheet, cs => sheet.Whole cs
  | rule, cs => Gap cs
  | setting, _ => True

/-- What may stand behind the opening brace of a block: settings, a brace, and
what may stand behind the block. -/
def AfterBrace : Reading → List Char → Prop
  | setting, _ => True
  | r, cs =>
    ∃ w pairs body rest, Gap w ∧ SettingsText pairs body ∧ r.AfterBlock rest ∧
      cs = w ++ (body ++ '\x7d' :: rest)

/-- What may stand behind a setting: what may stand where it began, if it is in
a block. -/
def AfterSetting : Reading → List Char → Prop
  | setting, cs => Gap cs
  | r, cs => r.AfterBrace cs

/-- What may stand behind the last token. -/
def Continues (r : Reading) : Option Terminal → List Char → Prop
  | none => r.Whole
  | some .selector => Next .openBrace r.AfterBrace
  | some .openBrace => r.AfterBrace
  | some .closeBrace => r.AfterBlock
  | some .name => Next .colon (Next .value (Next .semicolon r.AfterSetting))
  | some .colon => Next .value (Next .semicolon r.AfterSetting)
  | some .value => Next .semicolon r.AfterSetting
  | some .semicolon => r.AfterSetting

variable {r : Reading} {last next : Option Terminal} {c d : Cursor}
  {ts : List Token} {w s cs rest : List Char}

/-! ## One token -/

theorem exists_settingText (hs : IsName s) (h : r.Continues (some .name) cs) :
    ∃ pair body rest, SettingText pair body ∧ r.AfterSetting rest ∧
      s ++ cs = body ++ rest := by
  obtain ⟨w₁, _, _, hw₁, rfl,
    ⟨w₂, v, _, hw₂, hv, ⟨w₃, _, rest, hw₃, rfl, hrest, rfl⟩, rfl⟩, rfl⟩ := h
  exact ⟨_, _, rest, ⟨s, w₁, w₂, v, w₃, hs, hv, hw₁, hw₂, hw₃, rfl, rfl⟩,
    hrest, by simp⟩

theorem exists_blockText (hr : r ≠ setting) (hs : IsText isSelectorChar s)
    (h : r.Continues (some .selector) cs) :
    ∃ b body rest, BlockText b body ∧ r.AfterBlock rest ∧
      s ++ cs = body ++ rest := by
  obtain ⟨w₁, _, _, hw₁, rfl, hbrace, rfl⟩ := h
  cases r with
  | setting => exact absurd rfl hr
  | sheet | rule =>
      obtain ⟨w₂, pairs, body, rest, hw₂, hbody, hrest, rfl⟩ := hbrace
      exact ⟨⟨_, pairs⟩, _, rest,
        ⟨s, w₁, w₂, body, hs, hw₁, hw₂, hbody, rfl, rfl⟩, hrest, by simp⟩

/-- A block in front of a sheet. -/
theorem Whole.cons {b : Block} (hw : Gap w) (hcs : BlockText b cs)
    (h : sheet.Whole rest) :
    sheet.Whole (w ++ (cs ++ rest)) := by
  obtain ⟨u, body, v, hu, ⟨bs, hbody⟩, hv, rfl⟩ := h
  cases bs with
  | nil =>
      cases hbody
      exact ⟨w, cs, u ++ v, hw, ⟨[b], .single hcs⟩, hu.append hv, by simp⟩
  | cons next bs =>
      exact ⟨w, cs ++ (u ++ body), v, hw, ⟨_, .cons hcs hu hbody⟩, hv, by simp⟩

/-- A setting in front of what may stand behind the opening brace. -/
theorem AfterBrace.cons (hw : Gap w) (hs : IsName s)
    (h : r.Continues (some .name) cs) :
    r.AfterBrace (w ++ (s ++ cs)) := by
  obtain ⟨pair, body, rest, hbody, hrest, heq⟩ := exists_settingText hs h
  rw [heq]
  cases r with
  | setting => trivial
  | sheet | rule =>
      obtain ⟨u, pairs, more, rest, hu, hmore, hrest, rfl⟩ := hrest
      exact ⟨w, _, _, rest, hw, .cons hbody hu hmore, hrest, by simp⟩

/-- At the closing brace there are no settings left. -/
theorem AfterBrace.nil (hw : Gap w) (h : r.AfterBlock cs) :
    r.AfterBrace (w ++ ('\x7d' :: cs)) := by
  cases r with
  | setting => trivial
  | sheet | rule => exact ⟨w, [], [], cs, hw, .nil, h, rfl⟩

/-- A token that was looked for may stand in front of what may follow it. -/
theorem Continues.token {kind : Terminal} (hend : r.mustEnd last = false)
    (hkind : kind ∈ r.sought last) (hw : Gap w) (hs : kind.Language s)
    (h : r.Continues (some kind) cs) : r.Continues last (w ++ (s ++ cs)) := by
  have hbrace : kind ∈ [.closeBrace, .name] →
      r.AfterBrace (w ++ (s ++ cs)) := by
    intro hkind
    rcases List.mem_pair.1 hkind with rfl | rfl
    · cases hs
      exact .nil hw h
    · exact .cons hw hs h
  cases last with
  | none =>
      cases r with
      | sheet =>
          cases List.mem_singleton.1 hkind
          obtain ⟨b, body, rest, hbody, hrest, heq⟩ :=
            exists_blockText (by decide) hs h
          rw [heq]
          exact .cons hw hbody hrest
      | rule =>
          cases List.mem_singleton.1 hkind
          obtain ⟨b, body, rest, hbody, hrest, heq⟩ :=
            exists_blockText (by decide) hs h
          exact ⟨w, body, rest, hw, ⟨b, hbody⟩, hrest, by rw [heq]⟩
      | setting =>
          cases List.mem_singleton.1 hkind
          obtain ⟨pair, body, rest, hbody, hrest, heq⟩ :=
            exists_settingText hs h
          exact ⟨w, body, rest, hw, ⟨pair, hbody⟩, hrest, by rw [heq]⟩
  | some last =>
      cases last with
      | selector | name | colon | value =>
          cases List.mem_singleton.1 hkind
          exact ⟨w, s, cs, hw, hs, h, rfl⟩
      | openBrace => exact hbrace hkind
      | semicolon =>
          cases r with
          | sheet | rule => exact hbrace hkind
          | setting => cases hend
      | closeBrace =>
          cases r with
          | sheet =>
              cases List.mem_singleton.1 hkind
              obtain ⟨b, body, rest, hbody, hrest, heq⟩ :=
                exists_blockText (by decide) hs h
              rw [Continues, AfterBlock, heq]
              exact .cons hw hbody hrest
          | rule => cases hend
          | setting => trivial

/-! ## All tokens -/

/-- What has been read may stand in front of what may follow it. -/
theorem Continues.of_steps (h : r.Steps last c ts next d)
    (hcs : r.Continues next cs) :
    r.Continues last (written ts ++ cs) := by
  induction h with
  | refl => exact hcs
  | @token last next c d e t ts hend htoken _ _ ih =>
      obtain ⟨hkind, hgap, htext, -⟩ := token?_eq_some htoken
      have htail := Continues.token hend hkind hgap htext (ih hcs)
      rw [written, List.flatMap_cons, List.append_assoc, List.append_assoc]
      exact htail

/-- Whatever gap it is reached over, something may follow. -/
def Open (r : Reading) (last : Option Terminal) : Prop :=
  ∀ w, Gap w → ∃ rest, r.Continues last (w ++ rest)

theorem exists_language (kind : Terminal) : ∃ s, kind.Language s := by
  have htext : ∀ {plain : Char → Bool}, plain 'p' = true → IsText plain ['p'] :=
    fun h => ⟨.plain h .nil, 'p', [], rfl, by decide⟩
  cases kind with
  | selector => exact ⟨['p'], htext (by decide)⟩
  | value => exact ⟨['p'], htext (by decide)⟩
  | name =>
      exact ⟨['p'], List.cons_ne_nil _ _,
        List.forall_mem_singleton.2 (by decide +kernel)⟩
  | openBrace | closeBrace | colon | semicolon => exact ⟨_, rfl⟩

/-- Where a token is looked for behind which something may follow, it may follow
with what follows it. -/
theorem Open.of_token {kind : Terminal} (hend : r.mustEnd last = false)
    (hkind : kind ∈ r.sought last) (h : r.Open (some kind)) : r.Open last := by
  intro w hw
  obtain ⟨s, hs⟩ := exists_language kind
  obtain ⟨rest, hrest⟩ := h [] gap_nil
  exact ⟨s ++ rest, Continues.token hend hkind hw hs hrest⟩

theorem open_all (r : Reading) (last : Option Terminal) : r.Open last := by
  have hblock : r.Open (some .closeBrace) := by
    intro w hw
    refine ⟨[], ?_⟩
    rw [List.append_nil]
    cases r with
    | sheet => exact ⟨w, [], [], hw, ⟨[], .nil⟩, gap_nil, by simp⟩
    | rule => exact hw
    | setting => trivial
  have hbrace : r.Open (some .openBrace) :=
    .of_token (mustEnd_eq_false (by decide) (by decide) r)
      (List.mem_cons_self ..) hblock
  have hsetting : r.Open (some .semicolon) := by
    cases r with
    | sheet | rule => exact hbrace
    | setting => exact fun w hw => ⟨[], by rwa [List.append_nil]⟩
  have hvalue : r.Open (some .value) :=
    .of_token (mustEnd_eq_false (by decide) (by decide) r)
      (List.mem_cons_self ..) hsetting
  have hcolon : r.Open (some .colon) :=
    .of_token (mustEnd_eq_false (by decide) (by decide) r)
      (List.mem_cons_self ..) hvalue
  have hname : r.Open (some .name) :=
    .of_token (mustEnd_eq_false (by decide) (by decide) r)
      (List.mem_cons_self ..) hcolon
  have hselector : r.Open (some .selector) :=
    .of_token (mustEnd_eq_false (by decide) (by decide) r)
      (List.mem_cons_self ..) hbrace
  cases last with
  | none =>
      cases r with
      | sheet | rule => exact .of_token rfl (List.mem_cons_self ..) hselector
      | setting => exact .of_token rfl (List.mem_cons_self ..) hname
  | some last => cases last <;> assumption

/-! ## Whole texts -/

theorem errorOf?_eq_none {ε α : Type} {x : Except ε α} {a : α} (h : x = .ok a) :
    errorOf? x = none := by
  rw [h, errorOf?]

/-- A text of the grammar, whatever gaps are at its ends, is read without an
error. -/
theorem Whole.stop?_eq_none (h : r.Whole cs) : r.stop? (trim cs) = none := by
  obtain ⟨w, body, v, hw, hbody, hv, rfl⟩ := h
  rw [trim_append_of_blank fun d hd => isBlank_of_isGap (hw d hd)]
  cases r with
  | sheet =>
      obtain ⟨bs, hbody⟩ := hbody
      have htext : SheetText bs (trim (body ++ v)) := by
        by_cases hne : bs = []
        · subst hne
          cases hbody
          have htrim := trim_append_of_blank
            (fun d hd => isBlank_of_isGap (hv d hd)) []
          rw [List.append_nil] at htrim
          rw [List.nil_append, htrim]
          exact .nil
        · rwa [hbody.trim_append hne hv]
      exact errorOf?_eq_none (sheetBlocks_trim_iff.2 htext)
  | rule =>
      obtain ⟨b, hbody⟩ := hbody
      have htext : BlockText b (trim (body ++ v)) := by
        rwa [(SheetText.single hbody).trim_append (by simp) hv]
      exact errorOf?_eq_none (oneBlock_trim_iff.2 htext)
  | setting =>
      obtain ⟨pair, hbody⟩ := hbody
      have htext : SettingText pair (trim (body ++ v)) := by
        rwa [hbody.trim_append hv]
      exact errorOf?_eq_none (oneSetting_trim_iff.2 htext)

/-- What has been read, with the gap behind it, can be completed. -/
theorem exists_completion {text : List Char}
    (h : r.Steps none (.start text) ts next d) (hw : Gap w) :
    ∃ rest, r.stop? (trim (written ts ++ (w ++ rest))) = none := by
  obtain ⟨rest, hrest⟩ := open_all r next w hw
  exact ⟨rest, Whole.stop?_eq_none (Continues.of_steps h hrest)⟩

end Reading

end SheetBinding
