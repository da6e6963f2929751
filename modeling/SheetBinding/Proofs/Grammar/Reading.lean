import SheetBinding.Grammar.Block
import SheetBinding.Proofs.Grammar.Language
import SheetBinding.Proofs.Result

/-!
# The reader accepts the grammar, and the grammar is unambiguous

`SheetText`, `BlockText` and `SettingText` say what a sheet, a block and a
setting look like, with no word on how they are read: any way to cut a text into
tokens with gaps between them will do, and a text may allow several, because a
selector or a value may itself end in white space. The reader knows one way
only. It takes the longest token at every step and never goes back.

`reading_iff_grammar` says that this loses nothing. In one direction every
reading is a way to cut the text. In the other, the reader is run on a text that
has been cut, and is found to cut it at nearly the same places: a name ends
where no name character follows, a selector or a value runs on through the gap
behind it and stops at the delimiter, which is neither quoted nor plain. The gap
it took is trimmed off again. So the reader gives back what the cut text says,
whichever way it was cut, and two ways to cut one text cannot disagree.
-/

namespace SheetBinding.Grammar

open Text

/-! ## The grammar -/

/-- The text of a setting: a name, a colon, a value and a semicolon. -/
def SettingText (pair : String × String) (cs : List Char) : Prop :=
  ∃ n w₁ w₂ v w₃, IsName n ∧ IsText isValueChar v ∧ Gap w₁ ∧ Gap w₂ ∧ Gap w₃ ∧
    cs = n ++ (w₁ ++ ':' :: (w₂ ++ (v ++ (w₃ ++ [';'])))) ∧
    pair = (String.ofList n, trimmed (String.ofList v))

/-- The text of settings, each with the gap behind it. -/
inductive SettingsText : List (String × String) → List Char → Prop where
  | nil : SettingsText [] []
  | cons {pair : String × String} {pairs : List (String × String)}
      {cs w rest : List Char} :
      SettingText pair cs → Gap w → SettingsText pairs rest →
        SettingsText (pair :: pairs) (cs ++ (w ++ rest))

/-- The text of a block: a selector, and settings between braces. -/
def BlockText (b : Block) (cs : List Char) : Prop :=
  ∃ s w₁ w₂ body, IsText isSelectorChar s ∧ Gap w₁ ∧ Gap w₂ ∧ SettingsText
    b.settings body ∧ cs = s ++ (w₁ ++ '\x7b' :: (w₂ ++ (body ++ ['\x7d']))) ∧
    b.selector = trimmed (String.ofList s)

/-- The text of a sheet: blocks with gaps between them. -/
inductive SheetText : List Block → List Char → Prop where
  | nil : SheetText [] []
  | single {b : Block} {cs : List Char} : BlockText b cs → SheetText [b] cs
  | cons {b next : Block} {bs : List Block} {cs w rest : List Char} :
      BlockText b cs → Gap w → SheetText (next :: bs) rest →
        SheetText (b :: next :: bs) (cs ++ (w ++ rest))

/-! ## One token -/

/-- What reading a token tells: the gap before it, and a text of the terminal's
language. -/
theorem exists_of_read {t : Terminal} {c d : Cursor} {token : String}
    (h : read t c = .ok (token, d)) :
    ∃ w s, Gap w ∧ t.Language s ∧ c.left = w ++ (s ++ d.left) ∧
      token = trimmed (String.ofList s) := by
  unfold read at h
  split at h
  · next s left htake =>
      cases h
      obtain ⟨w, hw, hleft⟩ := exists_gap c.left
      refine ⟨w, s, hw, t.language_of_take? htake, ?_, rfl⟩
      rw [(t.append_of_take? htake).2]
      exact hleft
  · cases h

/-- Reading a token past a gap. -/
theorem read_gap {t : Terminal} {w cs s left : List Char} (hw : Gap w)
    (hskip : skipGap cs = cs) (htake : t.take? cs = some (s, left))
    (last : List Char) :
    read t ⟨w ++ cs, last⟩ = .ok (trimmed (String.ofList s), ⟨left, cs⟩) := by
  rw [read]
  simp only [skipGap_append hw, hskip, htake]

/-- A delimiter past a gap. -/
theorem read_char {t : Terminal} {c : Char} {w : List Char}
    (ht : t.take? = takeChar? c) (hw : Gap w) (hc : isGap c = false)
    (rest last : List Char) :
    read t ⟨w ++ c :: rest, last⟩ =
      .ok (trimmed (String.ofList [c]), ⟨rest, c :: rest⟩) :=
  read_gap hw (skipGap_cons hc rest)
    (by rw [ht, takeChar?, if_pos (by simp)]) last

theorem trimmed_name {n : List Char} (hn : IsName n) :
    trimmed (String.ofList n) = String.ofList n := by
  obtain ⟨hne, hall⟩ := hn
  cases n with
  | nil => exact absurd rfl hne
  | cons c n =>
      obtain ⟨hc, hn⟩ := List.forall_mem_cons.1 fun d hd =>
        isBlank_of_isNameChar (hall d hd)
      rw [trimmed, String.toList_ofList, trim_cons hc, trimEnd_of_not_blank hn]

/-- A name past a gap, up to a character that no name holds. -/
theorem read_name {n w rest : List Char} (hn : IsName n) (hw : Gap w)
    (hstop : ∀ c ∈ rest.head?, isNameChar c = false) (last : List Char) :
    read .name ⟨w ++ (n ++ rest), last⟩ =
      .ok (String.ofList n, ⟨rest, n ++ rest⟩) := by
  have htake : Terminal.name.take? (n ++ rest) = some (n, rest) :=
    takeName?_append hn hstop
  rw [← trimmed_name hn]
  obtain ⟨hne, hall⟩ := hn
  cases n with
  | nil => exact absurd rfl hne
  | cons c n =>
      have hc := isBlank_of_isNameChar (hall c (List.mem_cons_self ..))
      exact read_gap hw (skipGap_cons (isGap_of_not_isBlank hc) _) htake last

/-- A text token past a gap, with the gap behind it, up to the character that
stops it. -/
theorem read_text {t : Terminal} {plain : Char → Bool} {s w v : List Char}
    {stop : Char} (ht : t.take? = takeText? plain)
    (hplain : ∀ c, plain c = true → isQuote c = false)
    (hblank : ∀ c, isBlank c = true → plain c = true) (hs : IsText plain s)
    (hw : Gap w) (hv : Gap v) (hquote : isQuote stop = false)
    (hstop : plain stop = false) (rest last : List Char) :
    ∃ last', read t ⟨w ++ (s ++ (v ++ stop :: rest)), last⟩ =
      .ok (trimmed (String.ofList s), ⟨stop :: rest, last'⟩) := by
  have htake := takeText?_append hplain hblank hs hv hquote hstop rest
  rw [← ht] at htake
  obtain ⟨-, c, tail, rfl, hc⟩ := hs
  have htrim : trimmed (String.ofList (c :: tail ++ v)) =
      trimmed (String.ofList (c :: tail)) := by
    rw [trimmed, trimmed, String.toList_ofList, String.toList_ofList,
      List.cons_append, trim_cons hc, trim_cons hc,
      trimEnd_append_blank fun d hd => isBlank_of_isGap (hv d hd)]
  rw [← htrim]
  exact ⟨_, read_gap hw (skipGap_cons (isGap_of_not_isBlank hc) _) htake last⟩

/-! ## Settings -/

/-- A setting is read by reading its four tokens. -/
theorem setting_eq_ok_iff {c d : Cursor} {pair : String × String} :
    setting c = .ok (pair, d) ↔
      ∃ c₁ x c₂ c₃ y, read .name c = .ok (pair.1, c₁) ∧
        read .colon c₁ = .ok (x, c₂) ∧
        read .value c₂ = .ok (pair.2, c₃) ∧
          read .semicolon c₃ = .ok (y, d) := by
  constructor
  · intro h
    unfold setting at h
    obtain ⟨⟨n, c₁⟩, h₁, h⟩ := bind_eq_ok_iff.1 h
    obtain ⟨⟨x, c₂⟩, h₂, h⟩ := bind_eq_ok_iff.1 h
    obtain ⟨⟨v, c₃⟩, h₃, h⟩ := bind_eq_ok_iff.1 h
    obtain ⟨⟨y, c₄⟩, h₄, h⟩ := bind_eq_ok_iff.1 h
    cases h
    exact ⟨c₁, x, c₂, c₃, y, h₁, h₂, h₃, h₄⟩
  · rintro ⟨c₁, x, c₂, c₃, y, h₁, h₂, h₃, h₄⟩
    simp only [setting, h₁, h₂, h₃, h₄, bind, Except.bind, pure, Except.pure]

/-- A setting that was read stands in the text, behind a gap. -/
theorem exists_of_setting {c d : Cursor} {pair : String × String}
    (h : setting c = .ok (pair, d)) :
    ∃ w cs, Gap w ∧ SettingText pair cs ∧ c.left = w ++ (cs ++ d.left) := by
  obtain ⟨c₁, x, c₂, c₃, y, h₁, h₂, h₃, h₄⟩ := setting_eq_ok_iff.1 h
  obtain ⟨w, n, hw, hn, hleft, hname⟩ := exists_of_read h₁
  obtain ⟨w₁, colon, hw₁, rfl, hleft₁, -⟩ := exists_of_read h₂
  obtain ⟨w₂, v, hw₂, hv, hleft₂, hvalue⟩ := exists_of_read h₃
  obtain ⟨w₃, semicolon, hw₃, rfl, hleft₃, -⟩ := exists_of_read h₄
  refine ⟨w, _, hw, ⟨n, w₁, w₂, v, w₃, hn, hv, hw₁, hw₂, hw₃, rfl, ?_⟩, ?_⟩
  · rw [← hvalue, ← trimmed_name hn, ← hname]
  · rw [hleft, hleft₁, hleft₂, hleft₃]
    simp

/-- A setting that stands in the text behind a gap is read. -/
theorem setting_append {w cs : List Char} {pair : String × String} (hw : Gap w)
    (h : SettingText pair cs) (rest last : List Char) :
    ∃ last', setting ⟨w ++ (cs ++ rest), last⟩ = .ok (pair, ⟨rest, last'⟩) := by
  obtain ⟨n, w₁, w₂, v, w₃, hn, hv, hw₁, hw₂, hw₃, rfl, rfl⟩ := h
  have hcolon : ∀ c ∈ (w₁ ++ ':' :: (w₂ ++ (v ++ (w₃ ++ ';' :: rest)))).head?,
      isNameChar c = false := by
    intro c hc
    cases w₁ with
    | nil => cases hc; decide
    | cons d ds =>
        cases hc
        exact isNameChar_of_isGap (hw₁ c (List.mem_cons_self ..))
  obtain ⟨last', hvalue⟩ :=
    read_text (t := .value) rfl (fun c => isQuote_of_isValueChar) (fun c =>
    isValueChar_of_isBlank) hv hw₂ hw₃ (by decide : isQuote ';' = false)
    (by decide) rest (':' :: (w₂ ++ (v ++ (w₃ ++ ';' :: rest))))
  have hname := read_name hn hw hcolon last
  simp only [List.append_assoc, List.cons_append, List.nil_append]
  exact ⟨_, setting_eq_ok_iff.2 ⟨_, _, _, _, _, hname,
    read_char (c := ':') rfl hw₁ (by decide) _ _, hvalue,
    read_char (c := ';') rfl gap_nil (by decide) rest last'⟩⟩

theorem settings_of_close {c d : Cursor} {x : String}
    (h : read .closeBrace c = .ok (x, d)) :
    settings c = .ok ([], d) := by
  rw [settings, h]

theorem settings_of_setting {c d : Cursor} {stop : Stop}
    {pair : String × String} (hclose : read .closeBrace c = .error stop)
    (h : setting c = .ok (pair, d)) :
    settings c = (settings d).map fun r => (pair :: r.1, r.2) := by
  rw [settings, hclose]
  dsimp only
  split
  · next hset => rw [h] at hset; cases hset
  · next hset =>
      rw [h] at hset
      cases hset
      rfl

theorem exists_of_settings {c d : Cursor} {pairs : List (String × String)}
    (h : settings c = .ok (pairs, d)) :
    ∃ w body, Gap w ∧ SettingsText pairs body ∧
      c.left = w ++ (body ++ '\x7d' :: d.left) := by
  fun_induction settings c generalizing pairs d with
  | case1 c x e hclose =>
      cases h
      obtain ⟨w, s, hw, rfl, hleft, -⟩ := exists_of_read hclose
      exact ⟨w, [], hw, .nil, hleft⟩
  | case2 => cases h
  | case3 c stop hclose pair e hset ih =>
      obtain ⟨⟨rest, f⟩, hrest, heq⟩ := map_eq_ok_iff.1 h
      cases heq
      obtain ⟨w, cs, hw, hcs, hleft⟩ := exists_of_setting hset
      obtain ⟨v, body, hv, hbody, hleft'⟩ := ih hrest
      refine ⟨w, cs ++ (v ++ body), hw, .cons hcs hv hbody, ?_⟩
      rw [hleft, hleft']
      simp

/-- A setting begins with a character of its name. -/
theorem SettingText.exists_cons {pair : String × String} {cs : List Char}
    (h : SettingText pair cs) : ∃ c rest, cs = c :: rest ∧
      isNameChar c = true := by
  obtain ⟨n, w₁, w₂, v, w₃, ⟨hne, hall⟩, -, -, -, -, rfl, -⟩ := h
  cases n with
  | nil => exact absurd rfl hne
  | cons c n => exact ⟨c, _, rfl, hall c (List.mem_cons_self ..)⟩

/-- At a name, settings are not over. -/
theorem read_closeBrace_append {pair : String × String} {w cs : List Char}
    (hw : Gap w) (h : SettingText pair cs) (rest last : List Char) :
    ∃ stop, read .closeBrace ⟨w ++ (cs ++ rest), last⟩ = .error stop := by
  obtain ⟨c, cs, rfl, hc⟩ := h.exists_cons
  have hgap : isGap c = false := isGap_of_not_isBlank (isBlank_of_isNameChar hc)
  have hbrace : (c == '\x7d') = false := by
    cases hc' : c == '\x7d' with
    | false => rfl
    | true => rw [eq_of_beq hc'] at hc; cases hc
  have htake : Terminal.closeBrace.take? (c :: (cs ++ rest)) = none := by
    rw [Terminal.take?, takeChar?, hbrace]
    rfl
  refine ⟨Cursor.stop ⟨w ++ (c :: cs ++ rest), last⟩ (some .closeBrace), ?_⟩
  rw [read]
  simp only [skipGap_append hw, List.cons_append, skipGap_cons hgap, htake]

theorem settings_append {w body : List Char} {pairs : List (String × String)}
    (hw : Gap w) (h : SettingsText pairs body) (rest last : List Char) :
    ∃ last', settings ⟨w ++ (body ++ '\x7d' :: rest), last⟩ =
      .ok (pairs, ⟨rest, last'⟩) := by
  induction h generalizing w last with
  | nil => exact ⟨_, settings_of_close (read_char rfl hw (by decide) rest last)⟩
  | @cons pair pairs cs v body hcs hv _ ih =>
      simp only [List.append_assoc]
      obtain ⟨stop, hclose⟩ := read_closeBrace_append hw hcs
        (v ++ (body ++ '\x7d' :: rest)) last
      obtain ⟨last₁, hset⟩ :=
        setting_append hw hcs (v ++ (body ++ '\x7d' :: rest)) last
      obtain ⟨last₂, hrest⟩ := ih hv last₁
      refine ⟨last₂, ?_⟩
      rw [settings_of_setting hclose hset, hrest]
      rfl

/-! ## Blocks -/

/-- A block is read by reading its selector, a brace, and settings with the
brace behind them. -/
theorem block_eq_ok_iff {c d : Cursor} {b : Block} :
    block c = .ok (b, d) ↔
      ∃ c₁ x c₂, read .selector c = .ok (b.selector, c₁) ∧
        read .openBrace c₁ = .ok (x, c₂) ∧
        settings c₂ = .ok (b.settings, d) := by
  constructor
  · intro h
    unfold block at h
    obtain ⟨⟨s, c₁⟩, h₁, h⟩ := bind_eq_ok_iff.1 h
    obtain ⟨⟨x, c₂⟩, h₂, h⟩ := bind_eq_ok_iff.1 h
    obtain ⟨⟨pairs, c₃⟩, h₃, h⟩ := bind_eq_ok_iff.1 h
    cases h
    exact ⟨c₁, x, c₂, h₁, h₂, h₃⟩
  · rintro ⟨c₁, x, c₂, h₁, h₂, h₃⟩
    simp only [block, h₁, h₂, h₃, bind, Except.bind, pure, Except.pure]

theorem exists_of_block {c d : Cursor} {b : Block} (h : block c = .ok (b, d)) :
    ∃ w cs, Gap w ∧ BlockText b cs ∧ c.left = w ++ (cs ++ d.left) := by
  obtain ⟨c₁, x, c₂, h₁, h₂, h₃⟩ := block_eq_ok_iff.1 h
  obtain ⟨w, s, hw, hs, hleft, hselector⟩ := exists_of_read h₁
  obtain ⟨w₁, brace, hw₁, rfl, hleft₁, -⟩ := exists_of_read h₂
  obtain ⟨w₂, body, hw₂, hbody, hleft₂⟩ := exists_of_settings h₃
  refine ⟨w, _, hw, ⟨s, w₁, w₂, body, hs, hw₁, hw₂, hbody, rfl, hselector⟩, ?_⟩
  rw [hleft, hleft₁, hleft₂]
  simp

theorem block_append {w cs : List Char} {b : Block} (hw : Gap w)
    (h : BlockText b cs) (rest last : List Char) :
    ∃ last', block ⟨w ++ (cs ++ rest), last⟩ = .ok (b, ⟨rest, last'⟩) := by
  obtain ⟨s, w₁, w₂, body, hs, hw₁, hw₂, hbody, rfl, hselector⟩ := h
  obtain ⟨last₁, hread⟩ := read_text (t := .selector) rfl
    (fun c => isQuote_of_isSelectorChar) (fun c => isSelectorChar_of_isBlank)
    hs hw hw₁ (by decide : isQuote '\x7b' = false) (by decide)
    (w₂ ++ (body ++ '\x7d' :: rest)) last
  obtain ⟨last₂, hsettings⟩ := settings_append hw₂ hbody rest
    ('\x7b' :: (w₂ ++ (body ++ '\x7d' :: rest)))
  rw [← hselector] at hread
  simp only [List.append_assoc, List.cons_append, List.nil_append]
  exact ⟨last₂, block_eq_ok_iff.2 ⟨_, _, _, hread,
    read_char (c := '\x7b') rfl gap_nil (by decide) _ last₁, hsettings⟩⟩

/-- A block begins with a character that is not blank. -/
theorem BlockText.exists_cons {b : Block} {cs : List Char}
    (h : BlockText b cs) :
    ∃ c rest, cs = c :: rest ∧ isBlank c = false := by
  obtain ⟨s, w₁, w₂, body, ⟨-, c, rest, rfl, hc⟩, -, -, -, rfl, -⟩ := h
  exact ⟨c, _, rfl, hc⟩

/-! ## Whole texts -/

theorem atEnd_iff {c : Cursor} : c.atEnd = true ↔ Gap c.left := by
  obtain ⟨w, hw, hleft⟩ := exists_gap c.left
  rw [Cursor.atEnd, List.isEmpty_iff]
  constructor
  · intro h
    rw [h, List.append_nil] at hleft
    rw [hleft]
    exact hw
  · intro h
    have := skipGap_append h []
    rwa [List.append_nil] at this

/-- Where a block begins, the text is not over. -/
theorem atEnd_append {b : Block} {w cs : List Char} (hw : Gap w)
    (h : BlockText b cs) (rest last : List Char) :
    (Cursor.mk (w ++ (cs ++ rest)) last).atEnd = false := by
  obtain ⟨c, cs, rfl, hc⟩ := h.exists_cons
  rw [Cursor.atEnd, skipGap_append hw, List.cons_append,
    skipGap_cons (isGap_of_not_isBlank hc)]
  rfl

theorem blocks_of_block {c d : Cursor} {b : Block} (hend : c.atEnd = false)
    (h : block c = .ok (b, d)) : blocks c = (blocks d).map (b :: ·) := by
  rw [blocks, hend]
  simp only [Bool.false_eq_true, if_false]
  split
  · next hblock => rw [h] at hblock; cases hblock
  · next hblock =>
      rw [h] at hblock
      cases hblock
      rfl

theorem exists_of_blocks {c : Cursor} {bs : List Block}
    (h : blocks c = .ok bs) :
    ∃ w cs v, Gap w ∧ SheetText bs cs ∧ Gap v ∧ c.left = w ++ (cs ++ v) := by
  fun_induction blocks c generalizing bs with
  | case1 c hend =>
      cases h
      exact ⟨c.left, [], [], atEnd_iff.1 hend, .nil, gap_nil, by simp⟩
  | case2 => cases h
  | case3 c _ b d hblock ih =>
      obtain ⟨rest, hrest, rfl⟩ := map_eq_ok_iff.1 h
      obtain ⟨w, cs, hw, hcs, hleft⟩ := exists_of_block hblock
      obtain ⟨w', text, v, hw', htext, hv, hleft'⟩ := ih hrest
      cases rest with
      | nil =>
          cases htext
          exact ⟨w, cs, w' ++ v, hw, .single hcs, hw'.append hv,
            by rw [hleft, hleft']; rfl⟩
      | cons next rest =>
          refine ⟨w, cs ++ (w' ++ text), v, hw, .cons hcs hw' htext, hv, ?_⟩
          rw [hleft, hleft']
          simp

theorem blocks_append {w cs v : List Char} {bs : List Block} (hw : Gap w)
    (h : SheetText bs cs) (hv : Gap v) (last : List Char) :
    blocks ⟨w ++ (cs ++ v), last⟩ = .ok bs := by
  induction h generalizing w last with
  | nil =>
      rw [blocks, if_pos (atEnd_iff.2 (hw.append hv))]
  | single hcs =>
      obtain ⟨last₁, hblock⟩ := block_append hw hcs v last
      rw [blocks_of_block (atEnd_append hw hcs v last) hblock, blocks,
        if_pos (atEnd_iff.2 hv)]
      rfl
  | @cons b next bs cs u rest hcs hu _ ih =>
      simp only [List.append_assoc]
      obtain ⟨last₁, hblock⟩ := block_append hw hcs (u ++ (rest ++ v)) last
      rw [blocks_of_block (atEnd_append hw hcs _ last) hblock, ih hu last₁]
      rfl

theorem complete_eq_ok_iff {α : Type} {result : Except Stop (α × Cursor)}
    {a : α} :
    complete result = .ok a ↔ ∃ c, result = .ok (a, c) ∧ Gap c.left := by
  rcases result with stop | ⟨b, c⟩
  · simp [complete]
  · rw [complete]
    constructor
    · intro h
      split at h
      · next hend =>
          cases h
          exact ⟨c, rfl, atEnd_iff.1 hend⟩
      · cases h
    · rintro ⟨d, hd, hend⟩
      cases hd
      rw [if_pos (atEnd_iff.2 hend)]

theorem sheetBlocks_trim_iff {l : List Char} {bs : List Block} :
    sheetBlocks (trim l) = .ok bs ↔ SheetText bs (trim l) := by
  constructor
  · intro h
    obtain ⟨w, cs, v, hw, hcs, hv, hleft⟩ := exists_of_blocks h
    rw [trim_eq_of_gaps hw hv hleft]
    exact hcs
  · intro h
    have := blocks_append gap_nil h gap_nil (trim l)
    rwa [List.append_nil] at this

theorem oneBlock_trim_iff {l : List Char} {b : Block} :
    oneBlock (trim l) = .ok b ↔ BlockText b (trim l) := by
  rw [oneBlock, complete_eq_ok_iff]
  constructor
  · rintro ⟨c, h, hend⟩
    obtain ⟨w, cs, hw, hcs, hleft⟩ := exists_of_block h
    rw [trim_eq_of_gaps hw hend hleft]
    exact hcs
  · intro h
    obtain ⟨last, hblock⟩ := block_append gap_nil h [] (trim l)
    rw [List.append_nil] at hblock
    exact ⟨_, hblock, gap_nil⟩

theorem oneSetting_trim_iff {l : List Char} {pair : String × String} :
    oneSetting (trim l) = .ok pair ↔ SettingText pair (trim l) := by
  rw [oneSetting, complete_eq_ok_iff]
  constructor
  · rintro ⟨c, h, hend⟩
    obtain ⟨w, cs, hw, hcs, hleft⟩ := exists_of_setting h
    rw [trim_eq_of_gaps hw hend hleft]
    exact hcs
  · intro h
    obtain ⟨last, hset⟩ := setting_append gap_nil h [] (trim l)
    rw [List.append_nil] at hset
    exact ⟨_, hset, gap_nil⟩

/-- What is read of a text is what any way to cut the text says; so a text can
be read just when it can be cut, and no two ways to cut it disagree. -/
theorem reading_iff_grammar (s : String) :
    ((∀ bs, sheetBlocks (trim s.toList) = .ok bs ↔
      SheetText bs (trim s.toList)) ∧
      ∀ bs bs', SheetText bs (trim s.toList) → SheetText bs' (trim s.toList) →
        bs = bs') ∧
    ((∀ b, oneBlock (trim s.toList) = .ok b ↔ BlockText b (trim s.toList)) ∧
      ∀ b b', BlockText b (trim s.toList) → BlockText b' (trim s.toList) →
        b = b') ∧
    ((∀ pair, oneSetting (trim s.toList) = .ok pair ↔
      SettingText pair (trim s.toList)) ∧
      ∀ pair pair', SettingText pair (trim s.toList) →
        SettingText pair' (trim s.toList) → pair = pair') := by
  refine ⟨⟨fun bs => sheetBlocks_trim_iff, fun bs bs' h h' => ?_⟩,
    ⟨fun b => oneBlock_trim_iff, fun b b' h h' => ?_⟩,
    ⟨fun pair => oneSetting_trim_iff, fun pair pair' h h' => ?_⟩⟩
  · exact Except.ok.inj ((sheetBlocks_trim_iff.2 h).symm.trans
      (sheetBlocks_trim_iff.2 h'))
  · exact Except.ok.inj ((oneBlock_trim_iff.2 h).symm.trans
      (oneBlock_trim_iff.2 h'))
  · exact Except.ok.inj ((oneSetting_trim_iff.2 h).symm.trans
      (oneSetting_trim_iff.2 h'))

end SheetBinding.Grammar
