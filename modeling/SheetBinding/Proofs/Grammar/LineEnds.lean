import SheetBinding.Proofs.Sheet.Tokens
import SheetBinding.Proofs.Text.LineEnds

/-!
# Reading a text with other line ends

No terminal can tell the kinds of line ends apart. Between tokens they are gaps,
a name holds none, and a selector or a value takes them as it takes all other
characters that are not its delimiters. So the reader takes the same tokens from
a text and from the text with its line ends unified (`take?_unifyLineEnds`), the
tokens being unified in turn, and every procedure that is built from reading
tokens does the same (`sheetBlocks_unifyLineEnds`): it gives the same blocks,
their texts unified, or it stops at the same character.

Where it stops is no place inside a line end (`Steps.head?_left_stop`), so what
was read before is unified on its own (`exists_front_of_sheetBlocks`).
-/

namespace SheetBinding

open Text

namespace Grammar

/-! ## One token -/

section Terminal

variable {plain : Char → Bool}

theorem takeUnits_unifyLineEnds (hreturn : plain '\r' = true)
    (hfeed : plain '\n' = true) (cs : List Char) :
    takeUnits plain (unifyLineEnds cs) =
      (unifyLineEnds (takeUnits plain cs).1, unifyLineEnds
        (takeUnits plain cs).2) := by
  have hplain : plain '\r' = plain '\n' := hreturn.trans hfeed.symm
  fun_induction takeUnits plain cs with
  | case1 => rw [unifyLineEnds, takeUnits]
  | case2 q rest hq inner after h units ih =>
      have hne := ne_return_of_isQuote hq
      have hclose := closeQuote?_unifyLineEnds hq rest
      rw [h, Option.map_some] at hclose
      rw [unifyLineEnds_cons_of_ne hne, takeUnits_quoted hq hclose, ih,
        List.cons_append, List.cons_append, unifyLineEnds_cons_of_ne hne,
        unifyLineEnds_append_cons (ne_feed_of_isQuote hq) hne]
  | case3 q rest hq h =>
      have hne := ne_return_of_isQuote hq
      have hclose := closeQuote?_unifyLineEnds hq rest
      rw [h, Option.map_none] at hclose
      rw [unifyLineEnds_cons_of_ne hne, takeUnits_unclosed hq hclose]
      rfl
  | case4 c rest hq hc units ih =>
      by_cases h : Unpaired c rest
      · have hunpaired : Unpaired c (takeUnits plain rest).1 := by
          rw [← takeUnits_append plain rest] at h
          exact h.of_append
        rw [Bool.not_eq_true] at hq
        rw [unifyLineEnds_cons h, unifyLineEnds_cons hunpaired,
          takeUnits_plain, ih]
        · rw [unified_of_alike (p := isQuote) (by decide), hq]
        · rw [unified_of_alike hplain, hc]
      · obtain ⟨rfl, l, rfl⟩ := exists_of_not_unpaired h
        rw [unifyLineEnds_pair, ih, takeUnits_plain (by decide) hfeed]
        dsimp only [units]
        rw [takeUnits_plain (by decide) hfeed, unifyLineEnds_pair]
  | case5 c rest hq hc =>
      rw [Bool.not_eq_true] at hq hc
      have hne : c ≠ '\r' := by
        rintro rfl
        rw [hreturn] at hc
        cases hc
      rw [unifyLineEnds_cons_of_ne hne, takeUnits_stop hq hc]
      rfl

theorem takeText?_unifyLineEnds (hreturn : plain '\r' = true)
    (hfeed : plain '\n' = true) (cs : List Char) :
    takeText? plain (unifyLineEnds cs) =
      (takeText? plain cs).map fun r =>
        (unifyLineEnds r.1, unifyLineEnds r.2) := by
  rw [takeText?, takeUnits_unifyLineEnds hreturn hfeed,
    all_head?_unifyLineEnds (by decide), isEmpty_unifyLineEnds, takeText?]
  split <;> rfl

theorem takeName?_unifyLineEnds (cs : List Char) :
    takeName? (unifyLineEnds cs) =
      (takeName? cs).map fun r => (unifyLineEnds r.1, unifyLineEnds r.2) := by
  have hname : isNameChar '\r' = isNameChar '\n' := by decide +kernel
  rw [takeName?, takeWhile_unifyLineEnds hname, dropWhile_unifyLineEnds hname,
    isEmpty_unifyLineEnds, takeName?]
  split <;> rfl

theorem takeChar?_unifyLineEnds {c : Char} (hreturn : c ≠ '\r')
    (hfeed : c ≠ '\n') (cs : List Char) :
    takeChar? c (unifyLineEnds cs) =
      (takeChar? c cs).map fun r => (unifyLineEnds r.1, unifyLineEnds r.2) := by
  induction cs using lineEnds_induction with
  | nil => rfl
  | pair l _ =>
      rw [unifyLineEnds_pair, unifyLineEnds_cons_of_ne (by decide), takeChar?,
        takeChar?, if_neg (by simpa using hfeed.symm),
        if_neg (by simpa using hreturn.symm)]
      rfl
  | cons d l h _ =>
      rw [unifyLineEnds_cons h, takeChar?, takeChar?]
      by_cases hd : d = '\r'
      · subst hd
        rw [if_neg (by simpa using hfeed.symm),
          if_neg (by simpa using hreturn.symm)]
        rfl
      · rw [if_neg (show ¬ (d == '\r') = true by simpa using hd)]
        split
        · rw [Option.map_some, unifyLineEnds_cons_of_ne hd]
          rfl
        · rfl

/-- A terminal takes from the unified text what it takes from the text,
unified. -/
theorem take?_unifyLineEnds (t : Terminal) (cs : List Char) :
    t.take? (unifyLineEnds cs) =
      (t.take? cs).map fun r => (unifyLineEnds r.1, unifyLineEnds r.2) := by
  cases t with
  | selector | value => exact takeText?_unifyLineEnds rfl rfl cs
  | name => exact takeName?_unifyLineEnds cs
  | openBrace | closeBrace | colon | semicolon =>
      exact takeChar?_unifyLineEnds (by decide) (by decide) cs

end Terminal

/-! ## Procedures -/

/-- A cursor in the text with its line ends unified. -/
def Cursor.unified (c : Cursor) : Cursor :=
  ⟨unifyLineEnds c.left, unifyLineEnds c.lastToken⟩

/-- A stop in the text with its line ends unified. -/
def Stop.unified (stop : Stop) : Stop :=
  ⟨stop.awaited, unifyLineEnds stop.left⟩

/-- A setting with its line ends unified. -/
def unifiedPair (pair : String × String) : String × String :=
  (Text.unified pair.1, Text.unified pair.2)

/-- A rule with its line ends unified. -/
def Block.unified (b : Block) : Block :=
  ⟨Text.unified b.selector, b.settings.map unifiedPair⟩

/-- What a procedure gives for the unified text, going by what it gives for the
text. -/
def unifiedResult {α : Type} (f : α → α) :
    Except Stop (α × Cursor) → Except Stop (α × Cursor)
  | .error stop => .error stop.unified
  | .ok (a, c) => .ok (f a, c.unified)

theorem Cursor.stop_unified (c : Cursor) (awaited : Option Terminal) :
    c.unified.stop awaited = (c.stop awaited).unified := by
  rw [Cursor.stop, Cursor.stop, Cursor.unified, skipGap_unifyLineEnds]
  cases h : skipGap c.left with
  | nil => rfl
  | cons d ds =>
      cases hu : unifyLineEnds (d :: ds) with
      | nil =>
          have hempty := isEmpty_unifyLineEnds (d :: ds)
          rw [hu] at hempty
          cases hempty
      | cons e es =>
          rw [Stop.unified, hu]

theorem unifiedResult_bind {α β : Type} {f : α → α} {g : β → β}
    {x y : Except Stop (α × Cursor)}
    {j k : α × Cursor → Except Stop (β × Cursor)} (hx : x = unifiedResult f y)
    (hk : ∀ a c, j (f a, c.unified) = unifiedResult g (k (a, c))) :
    x >>= j = unifiedResult g (y >>= k) := by
  subst hx
  rcases y with stop | ⟨a, c⟩
  · rfl
  · exact hk a c

theorem read_unified (t : Terminal) (c : Cursor) :
    read t c.unified = unifiedResult Text.unified (read t c) := by
  have hskip : skipGap c.unified.left = unifyLineEnds (skipGap c.left) :=
    skipGap_unifyLineEnds _
  rw [read, read, hskip, take?_unifyLineEnds]
  cases t.take? (skipGap c.left) with
  | none => exact congrArg Except.error (c.stop_unified _)
  | some r =>
      have htoken : trimmed (String.ofList (unifyLineEnds r.1)) =
          Text.unified (trimmed (String.ofList r.1)) := by
        rw [← trimmed_unified, Text.unified, String.toList_ofList]
      rw [Option.map_some]
      dsimp only
      rw [htoken]
      rfl

theorem setting_unified (c : Cursor) :
    setting c.unified = unifiedResult unifiedPair (setting c) := by
  refine unifiedResult_bind (read_unified .name c) fun name c => ?_
  refine unifiedResult_bind (read_unified .colon c) fun _ c => ?_
  refine unifiedResult_bind (read_unified .value c) fun value c => ?_
  exact unifiedResult_bind (read_unified .semicolon c) fun _ c => rfl

theorem settings_of_error {c : Cursor} {stop unclosed : Stop}
    (hclose : read .closeBrace c = .error unclosed) (h : setting c =
      .error stop) :
    settings c = .error stop := by
  rw [settings, hclose]
  dsimp only
  split
  · next hset => rw [h] at hset; cases hset; rfl
  · next hset => rw [h] at hset; cases hset

theorem settings_unified (c : Cursor) :
    settings c.unified = unifiedResult (List.map unifiedPair) (settings c) := by
  fun_induction settings c with
  | case1 c x d hclose =>
      have hread := read_unified .closeBrace c
      rw [hclose] at hread
      exact settings_of_close hread
  | case2 c _ hclose stop hset =>
      have hread := read_unified .closeBrace c
      have hstop := setting_unified c
      rw [hclose] at hread
      rw [hset] at hstop
      exact settings_of_error hread hstop
  | case3 c _ hclose pair d hset ih =>
      have hread := read_unified .closeBrace c
      have hpair := setting_unified c
      rw [hclose] at hread
      rw [hset] at hpair
      rw [settings_of_setting hread hpair, ih]
      cases settings d <;> rfl

theorem block_unified (c : Cursor) :
    block c.unified = unifiedResult Block.unified (block c) := by
  refine unifiedResult_bind (read_unified .selector c) fun selector c => ?_
  refine unifiedResult_bind (read_unified .openBrace c) fun _ c => ?_
  exact unifiedResult_bind (settings_unified c) fun pairs c => rfl

theorem Cursor.atEnd_unified (c : Cursor) : c.unified.atEnd = c.atEnd := by
  rw [atEnd, unified, skipGap_unifyLineEnds, isEmpty_unifyLineEnds, atEnd]

theorem blocks_of_error {c : Cursor} {stop : Stop} (hend : c.atEnd = false)
    (h : block c = .error stop) : blocks c = .error stop := by
  rw [blocks, hend, if_neg Bool.false_ne_true]
  split
  · next hblock => rw [h] at hblock; cases hblock; rfl
  · next hblock => rw [h] at hblock; cases hblock

theorem blocks_unified (c : Cursor) :
    blocks c.unified =
      match blocks c with
      | .error stop => .error stop.unified
      | .ok bs => .ok (bs.map Block.unified) := by
  fun_induction blocks c with
  | case1 c hend => rw [blocks, if_pos (c.atEnd_unified.trans hend)]; rfl
  | case2 c hend stop hblock =>
      rw [Bool.not_eq_true, ← c.atEnd_unified] at hend
      have hunified := block_unified c
      rw [hblock] at hunified
      exact blocks_of_error hend hunified
  | case3 c hend b d hblock ih =>
      rw [Bool.not_eq_true, ← c.atEnd_unified] at hend
      have hunified := block_unified c
      rw [hblock] at hunified
      rw [blocks_of_block hend hunified, ih]
      cases blocks d <;> rfl

/-- A text and the text with its line ends unified are read as the same blocks,
or the reading stops at the same place in both. -/
theorem sheetBlocks_unifyLineEnds (text : List Char) :
    sheetBlocks (unifyLineEnds text) =
      match sheetBlocks text with
      | .error stop => .error stop.unified
      | .ok bs => .ok (bs.map Block.unified) :=
  blocks_unified (.start text)

/-! ## The place where a reading stops -/

theorem Terminal.exists_cons_of_language {t : Terminal} {s : List Char}
    (h : t.Language s) :
    ∃ c rest, s = c :: rest ∧ isGap c = false := by
  have htext : ∀ {plain : Char → Bool}, IsText plain s →
      ∃ c rest, s = c :: rest ∧ isGap c = false := by
    rintro plain ⟨-, c, rest, rfl, hc⟩
    exact ⟨c, rest, rfl, isGap_of_not_isBlank hc⟩
  cases t with
  | selector | value => exact htext h
  | name =>
      obtain ⟨hne, hall⟩ := h
      cases s with
      | nil => exact absurd rfl hne
      | cons c rest =>
          have hc := isBlank_of_isNameChar (hall c (List.mem_cons_self ..))
          exact ⟨c, rest, rfl, isGap_of_not_isBlank hc⟩
  | openBrace | closeBrace | colon | semicolon => exact ⟨_, [], h, by decide⟩

end Grammar

open Grammar

namespace Reading

variable {r : Reading} {last next : Option Terminal} {c d : Cursor}
  {ts : List Token}

/-- The last token that was read does not begin with a gap. -/
theorem Steps.exists_cons_lastToken (h : r.Steps last c ts next d) :
    d = c ∨ ∃ e rest, d.lastToken = e :: rest ∧ isGap e = false := by
  induction h with
  | refl => exact .inl rfl
  | token _ htoken hlast _ ih =>
      rcases ih with rfl | ih
      · obtain ⟨e, rest, htext, he⟩ :=
          Terminal.exists_cons_of_language (token?_eq_some htoken).2.2.1
        rw [htext] at hlast
        exact .inr ⟨e, _, hlast, he⟩
      · exact .inr ih

/-- A reading that stops behind the start of a text does not stop at a gap. -/
theorem Steps.head?_left_stop {text : List Char}
    (h : r.Steps none (.start text) ts next d) (awaited : Option Terminal) :
    (d.stop awaited).left = text ∨ (d.stop awaited).left.head? ≠ some '\n' := by
  have hgap : ∀ {e : Char}, isGap e = false → e ≠ '\n' := by
    rintro _ he rfl
    cases he
  rw [Cursor.stop]
  cases hskip : skipGap d.left with
  | nil =>
      rcases h.exists_cons_lastToken with rfl | ⟨e, rest, hlast, he⟩
      · exact .inl rfl
      · refine .inr ?_
        rw [hlast, List.head?_cons, ne_eq, Option.some_inj]
        exact hgap he
  | cons e rest =>
      have he := List.head?_dropWhile_not isGap d.left
      rw [show d.left.dropWhile isGap = e :: rest from hskip] at he
      refine .inr ?_
      rw [List.head?_cons, ne_eq, Option.some_inj]
      exact hgap (by simpa using he)

end Reading

namespace Grammar

/-- A reading never stops inside a line end: what was read and what is left are
unified apart. -/
theorem exists_front_of_sheetBlocks {text : List Char} {stop : Stop}
    (h : sheetBlocks text = .error stop) :
    ∃ front, text = front ++ stop.left ∧
      unifyLineEnds text = unifyLineEnds front ++ unifyLineEnds stop.left := by
  obtain ⟨front, hfront⟩ := suffix_of_sheetBlocks h
  have hstop : Reading.sheet.stop? text = some stop :=
    Reading.errorOf?_eq_some_iff.2 h
  obtain ⟨ts, next, d, awaited, -, hsteps, -, rfl, -⟩ :=
    Reading.stop?_eq_some hstop
  refine ⟨front, hfront.symm, ?_⟩
  rcases hsteps.head?_left_stop awaited with hall | hhead
  · have hnil : front = [] := by
      rw [hall] at hfront
      exact List.append_left_eq_self.1 hfront
    rw [hnil, hall]
    rfl
  · rw [← unifyLineEnds_append (.inr hhead), hfront]

end Grammar

end SheetBinding
