import Mathlib.Tactic.Choose
import SheetBinding.Proofs.Sheet.RoundTrip

/-!
# A sheet is read rule by rule

Rules that are written one behind the other, with gaps between them or with
none, are read as a sheet of just these rules, and settings written one behind
the other between braces as the settings of just that rule. No piece has to know
what follows it. A rule ends in a brace and a setting in a semicolon, and
neither can be part of a longer token; so where one piece ends the reader is
where it would be at the start of the next.

In the grammar this is an induction over the pieces (`exists_sheetText_join`,
`settingsText_join`). What it costs to come back to the reader is the
equivalence of the two. The shape of a whole sheet is settled before its first
rule is planned, but pieces that each have the right shape leave nothing to
settle, and the first error is then that of the first piece that has one
(`mapError_planAll_map`).
-/

namespace SheetBinding

open Grammar Text

/-! ## Pieces one behind the other -/

/-- A text without blanks at its ends, and the gap behind it, which may be
empty. -/
structure Segment where
  text : String
  gap : String
  trim_text : trim text.toList = text.toList
  gap_gap : Gap gap.toList

namespace Segment

/-- The texts one behind the other, with their gaps. -/
def join (segments : List Segment) : String :=
  String.join (segments.map fun p => p.text ++ p.gap)

theorem toList_join_cons (p : Segment) (segments : List Segment) :
    (join (p :: segments)).toList =
      p.text.toList ++ (p.gap.toList ++ (join segments).toList) := by
  rw [join, List.map_cons, String.join_cons, String.toList_append,
    String.toList_append, List.append_assoc, join]

theorem blockText_iff {p : Segment} {b : Block} :
    oneBlock p.text.toList = .ok b ↔ BlockText b p.text.toList := by
  have h : oneBlock (trim p.text.toList) = .ok b ↔
      BlockText b (trim p.text.toList) := oneBlock_trim_iff
  rwa [p.trim_text] at h

theorem settingText_iff {p : Segment} {pair : String × String} :
    Settings.readPair p.text = .ok pair ↔ SettingText pair p.text.toList := by
  rw [Settings.readPair_eq_ok_iff, p.trim_text]

/-- A rule of the right shape can fail only when it is planned. -/
theorem read_of_blockText {p : Segment} {b : Block}
    (h : BlockText b p.text.toList) :
    Rule.read p.text = (Rule.plan b.selector b.settings).mapError .rule := by
  rw [← p.trim_text] at h
  exact Rule.read_of_blockText h

variable {segments : List Segment}

/-- Rules one behind the other are the text of a sheet, and a gap. -/
theorem exists_sheetText_join {block : Segment → Block}
    (h : ∀ p ∈ segments, BlockText (block p) p.text.toList) :
    ∃ cs v, SheetText (segments.map block) cs ∧ Gap v ∧
      (join segments).toList = cs ++ v := by
  induction segments with
  | nil => exact ⟨[], [], .nil, gap_nil, rfl⟩
  | cons p rest ih =>
      obtain ⟨hp, hrest⟩ := List.forall_mem_cons.1 h
      obtain ⟨cs, v, hcs, hv, hjoin⟩ := ih hrest
      rw [toList_join_cons, hjoin]
      cases rest with
      | nil =>
          cases hcs
          exact ⟨p.text.toList, p.gap.toList ++ v, .single hp,
            p.gap_gap.append hv, rfl⟩
      | cons next rest =>
          exact ⟨p.text.toList ++ (p.gap.toList ++ cs), v,
            .cons hp p.gap_gap hcs, hv, by simp⟩

/-- Settings one behind the other are the text of settings. -/
theorem settingsText_join {pair : Segment → String × String}
    (h : ∀ p ∈ segments, SettingText (pair p) p.text.toList) :
    SettingsText (segments.map pair) (join segments).toList := by
  induction segments with
  | nil => exact .nil
  | cons p rest ih =>
      obtain ⟨hp, hrest⟩ := List.forall_mem_cons.1 h
      rw [toList_join_cons]
      exact .cons hp p.gap_gap (ih hrest)

theorem sheetText_trim_join {block : Segment → Block}
    (h : ∀ p ∈ segments, BlockText (block p) p.text.toList) :
    SheetText (segments.map block) (trim (join segments).toList) := by
  by_cases hne : segments.map block = []
  · rw [List.map_eq_nil_iff.1 hne]
    exact .nil
  · obtain ⟨cs, v, hcs, hv, hjoin⟩ := exists_sheetText_join h
    rwa [hjoin, hcs.trim_append hne hv]

end Segment

/-- Planning blocks one after the other ends with the first that cannot be
planned. -/
theorem Sheet.mapError_planAll_map {α : Type} {read : α → Except ReadError Rule}
    {block : α → Block} {l : List α}
    (h : ∀ a ∈ l, read a =
      (Rule.plan (block a).selector (block a).settings).mapError .rule) :
    (Sheet.planAll (l.map block)).mapError .rule = l.mapM read := by
  induction l with
  | nil => rfl
  | cons a rest ih =>
      obtain ⟨ha, hrest⟩ := List.forall_mem_cons.1 h
      rw [List.mapM_cons, ← ih hrest, ha, List.map_cons, Sheet.planAll]
      cases Rule.plan (block a).selector (block a).settings with
      | error e => rfl
      | ok r =>
          cases Sheet.planAll (rest.map block) with
          | error e => rfl
          | ok rules => rfl

/-! ## The three ways to read agree -/

/-- Rules of the right shape, whatever gaps are between them, are read as a
sheet of the rules that each of them is read as; if some cannot be planned, the
first of these decides the error. And a selector with settings of the right
shape between braces is read as a block of just that selector and what each of
the settings is read as. -/
theorem Sheet.read_join (segments : List Segment) :
    ((∀ p ∈ segments, ∃ b, oneBlock p.text.toList = .ok b) →
      Sheet.read (Segment.join segments) =
        (segments.mapM fun p => Rule.read p.text).map Sheet.mk) ∧
    ∀ selector : String, Terminal.selector.Language selector.toList →
      (∀ p ∈ segments, ∃ pair, Settings.readPair p.text = .ok pair) →
      ∃ pairs, (segments.mapM fun p => Settings.readPair p.text) = .ok pairs ∧
        oneBlock (trim (selector ++ "\x7b" ++ Segment.join segments ++
          "\x7d").toList) =
          .ok ⟨trimmed selector, pairs⟩ := by
  constructor
  · intro h
    have : Nonempty Block := ⟨⟨"", []⟩⟩
    choose! block hblock using h
    have htext : ∀ p ∈ segments, BlockText (block p) p.text.toList :=
      fun p hp => Segment.blockText_iff.1 (hblock p hp)
    rw [Sheet.read_of_sheetText (Segment.sheetText_trim_join htext),
      mapError_map, Sheet.mapError_planAll_map fun p hp =>
      Segment.read_of_blockText (htext p hp)]
  · intro selector hselector h
    choose! pair hpair using h
    have htext : ∀ p ∈ segments, SettingText (pair p) p.text.toList :=
      fun p hp => Segment.settingText_iff.1 (hpair p hp)
    refine ⟨segments.map pair, mapM_eq_ok_map hpair, ?_⟩
    have hblock : BlockText ⟨trimmed selector, segments.map pair⟩
        (selector ++ "\x7b" ++ Segment.join segments ++ "\x7d").toList :=
      ⟨selector.toList, [], [], (Segment.join segments).toList,
        hselector, gap_nil, gap_nil, Segment.settingsText_join htext,
        by simp, by rw [String.ofList_toList]⟩
    rw [oneBlock_trim_iff, hblock.trim_eq]
    exact hblock

/-- Two rules with nothing between them, the first with a brace in a value. -/
def adjacentRules : List Segment := [
  ⟨"p\x7ba:'\x7d';\x7d", "", by decide +kernel, gap_nil⟩,
  ⟨"q\x7b\x7d", "", by decide +kernel, gap_nil⟩]

/-- Two settings with nothing between them, the first with a semicolon in its
value. -/
def adjacentSettings : List Segment := [
  ⟨"a:';';", "", by decide +kernel, gap_nil⟩,
    ⟨"b:1;", "", by decide +kernel, gap_nil⟩]

theorem Sheet.read_join_adjacent :
    (Sheet.read (Segment.join adjacentRules) =
      (adjacentRules.mapM fun p => Rule.read p.text).map Sheet.mk) ∧
    ∃ pairs,
      (adjacentSettings.mapM fun p => Settings.readPair p.text) = .ok pairs ∧
      oneBlock (trim ("p" ++ "\x7b" ++ Segment.join adjacentSettings ++
        "\x7d").toList) =
        .ok ⟨trimmed "p", pairs⟩ := by
  have hrules : adjacentRules.all (fun p => (oneBlock p.text.toList).toBool) =
      true := by
    decide +kernel
  have hsettings : adjacentSettings.all
      (fun p => (Settings.readPair p.text).toBool) = true := by
    decide +kernel
  have hselector : Terminal.selector.Language "p".toList :=
    ⟨.plain (by decide) .nil, 'p', [], rfl, by decide⟩
  exact ⟨(Sheet.read_join adjacentRules).1 fun p hp =>
      exists_ok_of_toBool (List.all_eq_true.1 hrules p hp),
    (Sheet.read_join adjacentSettings).2 "p" hselector fun p hp =>
      exists_ok_of_toBool (List.all_eq_true.1 hsettings p hp)⟩

end SheetBinding
