import SheetBinding.Grammar.Position
import SheetBinding.Proofs.Grammar.Reading

/-!
# Where a reading stops

A reading only ever looks at what is left of the text, so the place where it
stops is a place in the text: what was left there is an end of it
(`suffix_of_sheetBlocks`, `suffix_of_oneBlock`, `suffix_of_oneSetting`). It is
kept by every token, with the start of the last token beside what is left,
because a text that is over too early is reported there.

The place is told as a line and a column, and both count from the start of the
text that was read. Where that text has others in front of it, the line moves
down by their line feeds, and the column moves on the first line only
(`Position.after_append`).
-/

namespace SheetBinding

namespace Grammar

open Text

/-! ## Cursors and stops are in the text -/

/-- A cursor into a text: what is left, and what was left at the last token, are
ends of it. -/
structure Cursor.Within (text : List Char) (c : Cursor) : Prop where
  left : c.left <:+ text
  lastToken : c.lastToken <:+ text

/-- A reading of a text goes on in that text or stops in it. -/
def StaysWithin {α : Type} (text : List Char) : Except Stop (α × Cursor) → Prop
  | .ok (_, d) => d.Within text
  | .error stop => stop.left <:+ text

variable {text : List Char} {c : Cursor}

theorem within_start (text : List Char) : (Cursor.start text).Within text :=
  ⟨List.suffix_rfl, List.suffix_rfl⟩

theorem Cursor.Within.skipGap (h : c.Within text) : skipGap c.left <:+ text :=
  (List.dropWhile_suffix isGap).trans h.left

theorem Cursor.Within.stop (h : c.Within text) (awaited : Option Terminal) :
    (c.stop awaited).left <:+ text := by
  rw [Cursor.stop]
  split
  · exact h.lastToken
  · exact h.skipGap

theorem StaysWithin.bind {α β : Type} {x : Except Stop (α × Cursor)}
    {f : α × Cursor → Except Stop (β × Cursor)} (hx : StaysWithin text x)
    (hf : ∀ a d, d.Within text → StaysWithin text (f (a, d))) : StaysWithin text
      (x >>= f) := by
  rcases x with stop | ⟨a, d⟩
  · exact hx
  · exact hf a d hx

theorem StaysWithin.map {α β : Type} {x : Except Stop (α × Cursor)}
    (hx : StaysWithin text x) (f : α → β) :
    StaysWithin text (x.map fun r => (f r.1, r.2)) := by
  rcases x with stop | ⟨a, d⟩ <;> exact hx

theorem staysWithin_read (t : Terminal) (h : c.Within text) :
    StaysWithin text (read t c) := by
  rw [read]
  split
  · next token left htake =>
      have hleft : left <:+ skipGap c.left :=
        ⟨token, (t.append_of_take? htake).2⟩
      exact ⟨hleft.trans h.skipGap, h.skipGap⟩
  · exact h.stop _

theorem staysWithin_setting (h : c.Within text) :
    StaysWithin text (setting c) := by
  refine (staysWithin_read .name h).bind fun name c hc => ?_
  refine (staysWithin_read .colon hc).bind fun _ c hc => ?_
  refine (staysWithin_read .value hc).bind fun value c hc => ?_
  exact (staysWithin_read .semicolon hc).bind fun _ c hc => hc

theorem staysWithin_settings (h : c.Within text) :
    StaysWithin text (settings c) := by
  fun_induction settings c with
  | case1 c x d hclose =>
      have := staysWithin_read .closeBrace h
      rwa [hclose] at this
  | case2 c _ _ stop hset =>
      have := staysWithin_setting h
      rwa [hset] at this
  | case3 c _ _ pair d hset ih =>
      have hd := staysWithin_setting h
      rw [hset] at hd
      exact (ih hd).map (pair :: ·)

theorem staysWithin_block (h : c.Within text) : StaysWithin text (block c) := by
  refine (staysWithin_read .selector h).bind fun selector c hc => ?_
  refine (staysWithin_read .openBrace hc).bind fun _ c hc => ?_
  exact (staysWithin_settings hc).bind fun pairs c hc => hc

theorem suffix_of_blocks (h : c.Within text) {stop : Stop}
    (hstop : blocks c = .error stop) :
    stop.left <:+ text := by
  fun_induction blocks c with
  | case1 => cases hstop
  | case2 c _ stop' hblock =>
      cases hstop
      have := staysWithin_block h
      rwa [hblock] at this
  | case3 c _ b d hblock ih =>
      have hd := staysWithin_block h
      rw [hblock] at hd
      exact ih hd (map_eq_error_iff.1 hstop)

theorem suffix_of_complete {α : Type} {result : Except Stop (α × Cursor)}
    {stop : Stop} (h : StaysWithin text result)
    (hstop : complete result = .error stop) :
    stop.left <:+ text := by
  rcases result with stop' | ⟨a, d⟩
  · cases hstop
    exact h
  · rw [complete] at hstop
    split at hstop
    · cases hstop
    · cases hstop
      exact Cursor.Within.stop h none

variable {stop : Stop}

theorem suffix_of_sheetBlocks (h : sheetBlocks text = .error stop) :
    stop.left <:+ text :=
  suffix_of_blocks (within_start text) h

theorem suffix_of_oneBlock (h : oneBlock text = .error stop) :
    stop.left <:+ text :=
  suffix_of_complete (staysWithin_block (within_start text)) h

theorem suffix_of_oneSetting (h : oneSetting text = .error stop) :
    stop.left <:+ text :=
  suffix_of_complete (staysWithin_setting (within_start text)) h

end Grammar

/-! ## Lines and columns -/

namespace Position

theorem ofLeft_append (front left : List Char) :
    ofLeft (front ++ left) left = after front := by
  rw [ofLeft, List.length_append, Nat.add_sub_cancel, List.take_left]

/-- Where a place comes to stand when a text is put in front of it. -/
def behind (lead : List Char) (p : Position) : Position :=
  ⟨p.line + lead.count '\n',
    if p.line = 1 then p.column + (lead.reverse.takeWhile (· != '\n')).length
    else p.column⟩

theorem takeWhile_of_not_mem {l : List Char} (h : '\n' ∉ l) :
    l.takeWhile (· != '\n') = l := by
  rw [List.takeWhile_eq_self_iff]
  intro c hc
  rw [bne_iff_ne]
  exact fun he => h (he ▸ hc)

theorem after_append (lead cs : List Char) :
    after (lead ++ cs) = (after cs).behind lead := by
  rw [after, after, behind, Position.mk.injEq]
  constructor
  · rw [List.count_append]
    dsimp only
    omega
  · dsimp only
    rw [List.reverse_append, List.takeWhile_append]
    by_cases hmem : '\n' ∈ cs
    · have hline : 1 + cs.count '\n' ≠ 1 := by
        have := List.count_pos_iff.2 hmem
        omega
      rw [if_neg hline, if_neg]
      intro hlength
      have hall := (List.takeWhile_prefix (· != '\n')).eq_of_length hlength
      have := List.mem_takeWhile_imp (hall ▸ List.mem_reverse.2 hmem)
      simp at this
    · have hline : 1 + cs.count '\n' = 1 := by
        have := List.count_eq_zero.2 hmem
        omega
      have hnot : '\n' ∉ cs.reverse := fun h => hmem (List.mem_reverse.1 h)
      rw [if_pos hline, takeWhile_of_not_mem hnot, if_pos rfl,
        List.length_append]
      omega

/-- A text in front moves nothing just when it holds no line feed and the place
is not on its line. -/
theorem behind_eq_self_iff {lead : List Char} {p : Position} :
    p.behind lead = p ↔ '\n' ∉ lead ∧ (lead = [] ∨ p.line ≠ 1) := by
  obtain ⟨line, column⟩ := p
  rw [behind, Position.mk.injEq, Nat.add_eq_left, List.count_eq_zero]
  refine and_congr_right fun hnot => ?_
  have hnot : '\n' ∉ lead.reverse := fun h => hnot (List.mem_reverse.1 h)
  rw [takeWhile_of_not_mem hnot, List.length_reverse]
  dsimp only
  split
  · next hline => simp [hline]
  · next hline => simp [hline]

end Position

end SheetBinding
