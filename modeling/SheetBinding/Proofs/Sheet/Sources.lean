import SheetBinding.Proofs.Grammar.LineEnds
import SheetBinding.Proofs.Rule.LineEnds
import SheetBinding.Proofs.Sheet.Failure
import SheetBinding.Proofs.Sheet.Placement
import SheetBinding.Proofs.Sheet.RoundTrip

/-!
# The sources of a sheet

A sheet can be loaded from a text, from its bytes, or from a file that holds the
bytes. Decoding gives the text back, whatever the codec, so a text and its bytes
are the same source. A file is not: its line ends are unified before it is read.
`load_alike_iff` says when that is seen. The blocks of the unified text are
those of the text with their own texts unified, and a selector or a value with a
carriage return in it is another one once it has none; where nothing is planned,
the place of the error counts the lines before it, and a carriage return alone
begins a line only in a file.
-/

namespace SheetBinding

open Grammar Text

/-! ## Results that agree -/

/-- The class of an error of reading. -/
def ReadError.errorClass : ReadError → ErrorClass
  | malformedSheet _ => .malformedSheet
  | malformedRule _ => .malformedRule
  | malformedSetting _ => .malformedSetting
  | rule e => e.errorClass

/-- The class of an error of loading. -/
def LoadError.errorClass : LoadError → ErrorClass
  | decode .unknownEncoding => .unknownEncoding
  | decode .undecodable => .undecodable
  | read e => e.errorClass

/-- The place where the text goes wrong, if it is the text that does. -/
def LoadError.place? : LoadError → Option Position
  | decode _ => none
  | read e => e.place?

/-- Two results of loading that agree: equal sheets, or errors of one class at
the same place. -/
inductive LoadsAlike : Except LoadError Sheet → Except LoadError Sheet →
    Prop where
  | sheets {a b : Sheet} (same : a.same b = true) : LoadsAlike (.ok a) (.ok b)
  | errors {d e : LoadError} (kind : d.errorClass = e.errorClass)
      (place : d.place? = e.place?) :
      LoadsAlike (.error d) (.error e)

/-- A rule that was written with a carriage return in its selector or in a
value. -/
def Rule.HoldsReturn (r : Rule) : Prop :=
  '\r' ∈ r.selector.text.toList ∨
    ∃ pair ∈ r.settings.pairs, '\r' ∈ pair.2.toList

instance : DecidablePred Rule.HoldsReturn := fun r =>
  inferInstanceAs (Decidable ('\r' ∈ r.selector.text.toList ∨
    ∃ pair ∈ r.settings.pairs, '\r' ∈ pair.2.toList))

/-- No carriage return of a text is seen in what loading the text gives. -/
structure ReturnsUnseen (s : String) : Prop where
  /-- Every carriage return before the place where the text goes wrong has a
  line feed behind it. -/
  place : ∀ front stop, sheetBlocks (trim s.toList) = .error stop →
    trim s.toList = front ++ stop.left → loneReturns front = 0
  /-- No rule keeps one. -/
  rules : ∀ sheet, Sheet.read s = .ok sheet →
    ∀ rule ∈ sheet.rules, ¬ rule.HoldsReturn

/-! ## Rules of unified blocks -/

theorem Grammar.PlainBlock.unified_eq {b : Block} (h : PlainBlock b) :
    b.unified = ⟨Text.unified b.selector, unifiedValues b.settings⟩ := by
  rw [Block.unified, unifiedValues]
  congr 1
  refine List.map_congr_left fun pair hpair => ?_
  have hname : Text.unified pair.1 = pair.1 := by
    rw [unified_eq_self_iff]
    intro hmem
    cases (h.settings pair hpair).name.2 _ hmem
  rw [unifiedPair, hname]

namespace Rule

variable {r r' : Rule}

/-- A rule with a carriage return in it is another rule when its line ends are
unified. -/
theorem not_holdsReturn_of_same (hblock : r'.block = r.block.unified)
    (hplain : PlainBlock r.block) (h : r'.same r = true) : ¬ r.HoldsReturn := by
  rw [hplain.unified_eq] at hblock
  obtain ⟨hselector, hsettings⟩ := Block.mk.inj hblock
  simp only [same, Bool.and_eq_true] at h
  obtain ⟨⟨⟨⟨⟨⟨⟨htext, hmap⟩, -⟩, -⟩, -⟩, -⟩, -⟩, -⟩ := h
  rintro (hmem | ⟨pair, hpair, hmem⟩)
  · exact unified_eq_self_iff.1 (hselector.symm.trans (eq_of_beq htext)) hmem
  · have hunified : r.settings.get? pair.1 = some (unified pair.2) := by
      rw [Settings.get?_eq_some_iff, ← Settings.sameMap_iff.1 hmap, hsettings]
      exact List.mem_map_of_mem (List.mem_map_of_mem hpair)
    have hvalue : r.settings.get? pair.1 = some pair.2 :=
      Settings.get?_eq_some_iff.2 (List.mem_map_of_mem hpair)
    exact unified_eq_self_iff.1
      (Option.some.inj (hunified.symm.trans hvalue)) hmem

theorem unified_block_of_not_holdsReturn (hplain : PlainBlock r.block)
    (h : ¬ r.HoldsReturn) :
    r.block.unified = r.block := by
  rw [HoldsReturn, not_or] at h
  have hvalues : unifiedValues r.settings.pairs = r.settings.pairs := by
    rw [unifiedValues]
    refine (List.map_congr_left fun pair hpair => ?_).trans (List.map_id _)
    rw [unified_eq_self_iff.2 fun hmem => h.2 ⟨pair, hpair, hmem⟩]
    rfl
  rw [hplain.unified_eq]
  exact congrArg₂ Block.mk (unified_eq_self_iff.2 h.1) hvalues

end Rule

/-! ## The sheet of a unified text -/

namespace Sheet

theorem errorClass?_planAll {bs : List Block} (h : ∀ b ∈ bs, PlainBlock b) :
    errorClass? (planAll (bs.map Block.unified)) =
      errorClass? (planAll bs) := by
  induction bs with
  | nil => rfl
  | cons b rest ih =>
      obtain ⟨hb, hrest⟩ := List.forall_mem_cons.1 h
      have hclass := Rule.errorClass?_plan b.selector b.settings
      rw [List.map_cons, planAll, planAll, hb.unified_eq]
      cases hunified : Rule.plan (unified b.selector)
        (unifiedValues b.settings) with
      | error d =>
          cases hplan : Rule.plan b.selector b.settings with
          | error e =>
              rw [hunified, hplan] at hclass
              exact hclass
          | ok r => rw [hunified, hplan] at hclass; cases hclass
      | ok r' =>
          cases hplan : Rule.plan b.selector b.settings with
          | error e => rw [hunified, hplan] at hclass; cases hclass
          | ok r =>
              dsimp only
              rw [errorClass?_map, errorClass?_map, ih hrest]

/-- Rules that are the same as those of the unified blocks hold no carriage
return. -/
theorem not_holdsReturn_of_sameRules {rules rules' : List Rule}
    (hblocks : rules'.map Rule.block = (rules.map Rule.block).map Block.unified)
    (hplain : ∀ r ∈ rules, PlainBlock r.block)
      (h : sameRules rules' rules = true) :
    ∀ r ∈ rules, ¬ r.HoldsReturn := by
  induction rules generalizing rules' with
  | nil => exact fun _ hr => nomatch hr
  | cons r rest ih =>
      cases rules' with
      | nil => cases hblocks
      | cons r' rest' =>
          simp only [List.map_cons, List.cons.injEq] at hblocks
          obtain ⟨hr, hrest⟩ := List.forall_mem_cons.1 hplain
          rw [sameRules, Bool.and_eq_true] at h
          exact List.forall_mem_cons.2 ⟨Rule.not_holdsReturn_of_same hblocks.1
            hr h.1, ih hblocks.2 hrest h.2⟩

variable {s : String} {bs : List Block} {stop : Stop}

theorem trim_unified (s : String) :
    trim (unified s).toList = unifyLineEnds (trim s.toList) := by
  rw [toList_unified, trim_unifyLineEnds]

/-- A text that goes wrong does so with its line ends unified, at the place that
follows the unified text before it. -/
theorem exists_read_unified_of_error
    (h : sheetBlocks (trim s.toList) = .error stop) :
    ∃ front, trim s.toList = front ++ stop.left ∧
      Sheet.read s = .error (.malformedSheet (.after front)) ∧
      Sheet.read (unified s) =
        .error (.malformedSheet (.after (unifyLineEnds front))) := by
  obtain ⟨front, hfront, hunified⟩ := exists_front_of_sheetBlocks h
  refine ⟨front, hfront, ?_, ?_⟩
  · rw [Sheet.read, h]
    dsimp only
    rw [hfront, Position.ofLeft_append]
  · rw [Sheet.read, trim_unified, sheetBlocks_unifyLineEnds, h]
    dsimp only
    rw [hunified, Stop.unified, Position.ofLeft_append]

theorem read_of_ok (h : sheetBlocks (trim s.toList) = .ok bs) :
    Sheet.read s = ((planAll bs).map Sheet.mk).mapError .rule ∧
      Sheet.read (unified s) =
        ((planAll (bs.map Block.unified)).map Sheet.mk).mapError .rule := by
  refine ⟨?_, ?_⟩
  · rw [Sheet.read, h]
  · rw [Sheet.read, trim_unified, sheetBlocks_unifyLineEnds, h]

theorem alike_unified_of_error (h : sheetBlocks (trim s.toList) = .error stop) :
    LoadsAlike (loadText (unified s)).result (loadText s).result ↔
      ReturnsUnseen s := by
  obtain ⟨front, hfront, hread, hunified⟩ := exists_read_unified_of_error h
  rw [result_loadText, result_loadText, hread, hunified]
  constructor
  · intro halike
    cases halike with
    | errors _ hplace =>
        have hlone := Position.after_unifyLineEnds_iff.1
          (Option.some.inj hplace)
        refine ⟨fun front' stop' hstop hfront' => ?_, fun sheet hsheet => ?_⟩
        · cases h.symm.trans hstop
          rw [hfront, List.append_left_inj] at hfront'
          rwa [← hfront']
        · cases hread.symm.trans hsheet
  · intro hunseen
    refine .errors rfl (congrArg some ?_)
    exact Position.after_unifyLineEnds_iff.2 (hunseen.place front stop h hfront)

/-- The rules of blocks and those of the unified blocks are the same just when
nothing was there to be unified. -/
theorem sameRules_unified_iff {rules rules' : List Rule}
    (hplain : ∀ b ∈ bs, PlainBlock b) (hrules : planAll bs = .ok rules)
    (hrules' : planAll (bs.map Block.unified) = .ok rules') :
    sameRules rules' rules = true ↔ ∀ r ∈ rules, ¬ r.HoldsReturn := by
  have hblocks := map_block_of_planAll hrules fun b hb =>
    (hplain b hb).trimmed_selector
  have hrule : ∀ r ∈ rules, PlainBlock r.block := fun r hr =>
    hplain r.block (hblocks ▸ List.mem_map_of_mem hr)
  have htrimmed : ∀ b ∈ bs.map Block.unified, trimmed b.selector =
      b.selector := by
    intro b hb
    obtain ⟨d, hd, rfl⟩ := List.mem_map.1 hb
    dsimp only [Block.unified]
    rw [trimmed_unified, (hplain d hd).trimmed_selector]
  constructor
  · refine not_holdsReturn_of_sameRules ?_ hrule
    rw [hblocks, map_block_of_planAll hrules' htrimmed]
  · intro hnone
    have hsame : bs.map Block.unified = bs := by
      rw [← hblocks, List.map_map]
      exact List.map_congr_left fun r hr =>
        Rule.unified_block_of_not_holdsReturn (hrule r hr) (hnone r hr)
    rw [hsame, hrules] at hrules'
    cases hrules'
    exact same_self ⟨rules⟩

theorem alike_unified_of_ok (h : sheetBlocks (trim s.toList) = .ok bs) :
    LoadsAlike (loadText (unified s)).result (loadText s).result ↔
      ReturnsUnseen s := by
  have hplain := (sheetBlocks_trim_iff.1 h).plain
  obtain ⟨hread, hunified⟩ := read_of_ok h
  have hclass := errorClass?_planAll hplain
  have hplace : ∀ front stop, sheetBlocks (trim s.toList) = .error stop →
      trim s.toList = front ++ stop.left → loneReturns front = 0 :=
    fun _ _ herror => by
    cases h.symm.trans herror
  rw [result_loadText, result_loadText, hunified]
  cases hrules : planAll bs with
  | error e =>
      rw [hrules] at hread
      cases hrules' : planAll (bs.map Block.unified) with
      | ok rules' => rw [hrules, hrules'] at hclass; cases hclass
      | error e' =>
          rw [hrules, hrules'] at hclass
          rw [hread]
          exact iff_of_true (.errors (Option.some.inj hclass) rfl)
            ⟨hplace, fun sheet hsheet => nomatch hread.symm.trans hsheet⟩
  | ok rules =>
      rw [hrules] at hread
      cases hrules' : planAll (bs.map Block.unified) with
      | error e' => rw [hrules, hrules'] at hclass; cases hclass
      | ok rules' =>
          rw [hread]
          have hsame := sameRules_unified_iff hplain hrules hrules'
          constructor
          · intro halike
            cases halike with
            | sheets h =>
                refine ⟨hplace, fun sheet hsheet => ?_⟩
                cases hread.symm.trans hsheet
                exact hsame.1 h
          · intro hunseen
            exact .sheets (hsame.2 (hunseen.rules _ hread))

theorem alike_unified_iff (s : String) :
    LoadsAlike (loadText (unified s)).result (loadText s).result ↔
      ReturnsUnseen s := by
  cases h : sheetBlocks (trim s.toList) with
  | error stop => exact alike_unified_of_error h
  | ok bs => exact alike_unified_of_ok h

section Bytes

variable {codecs : Codecs} {encoding : String} {codec : Codec}
  {bytes : List Byte} (hname : codecs encoding = some codec)
  (hbytes : codec.encode? s = some bytes)
include hname hbytes

theorem decodeBytes_of_encode? :
    decodeBytes codecs encoding bytes = .ok s := by
  rw [decodeBytes, hname]
  dsimp only
  rw [codec.decode?_of_encode? hbytes]

theorem result_load_bytes :
    (loadWith codecs (.bytes bytes) encoding).result =
      (loadText s).result := by
  rw [loadWith, decodeBytes_of_encode? hname hbytes]
  rfl

/-- A file gives what its text gives with its line ends unified. -/
theorem result_load_file (name : String) :
    (loadWith codecs (.file name bytes) encoding).result =
      (loadText (unified s)).result := by
  rw [loadWith, decodeFile, decodeBytes_of_encode? hname hbytes]
  rfl

/-- A text, its bytes, and a file of its bytes, in whatever encoding: the first
two always give the same, and the file gives what agrees with it just when no
carriage return of the text is seen. -/
theorem load_alike_iff (name : String) :
    (loadWith codecs (.text s) encoding).result = (loadText s).result ∧
      (loadWith codecs (.bytes bytes) encoding).result =
        (loadText s).result ∧
      (loadWith codecs (.file name bytes) encoding).result =
        (loadText (unified s)).result ∧
      (LoadsAlike (loadWith codecs (.file name bytes) encoding).result
          (loadText s).result ↔
        ReturnsUnseen s) := by
  have hfile := result_load_file hname hbytes name
  refine ⟨rfl, result_load_bytes hname hbytes, hfile, ?_⟩
  rw [hfile]
  exact alike_unified_iff s

end Bytes

/-- A sheet whose lines end in a carriage return and a line feed, all of them
between tokens. -/
def windowsSheet : String :=
  "p \x7b\r\n  binding-path: text;\r\n\x7d\r\n"

theorem ofName?_utf8 :
    Codec.ofName? "utf-8" = some Encoding.utf8.codec := by
  have hname : Encoding.ofName? "utf-8" = some .utf8 := by decide +kernel
  rw [Codec.ofName?, hname]
  rfl

theorem load_alike_iff_windows :
    ∃ bytes, Codec.ofName? "utf-8" = some Encoding.utf8.codec ∧
      Encoding.utf8.codec.encode? windowsSheet = some bytes ∧
      '\r' ∈ windowsSheet.toList ∧
      LoadsAlike (load (.file "page.bind" bytes) "utf-8").result
        (loadText windowsSheet).result := by
  obtain ⟨bytes, hbytes⟩ :
      ∃ bytes, Encoding.utf8.codec.encode? windowsSheet = some bytes :=
    Option.isSome_iff_exists.1 (by decide +kernel)
  have hread : ∀ sheet ∈ (Sheet.read windowsSheet).toOption,
      ∀ rule ∈ sheet.rules, ¬ rule.HoldsReturn := by decide +kernel
  refine ⟨bytes, ofName?_utf8, hbytes, by decide,
    (load_alike_iff ofName?_utf8 hbytes "page.bind").2.2.2.2
      ⟨fun front stop hstop _ => ?_,
        fun sheet hsheet => hread sheet (by rw [hsheet]; rfl)⟩⟩
  have hblocks : (sheetBlocks (trim windowsSheet.toList)).toBool = true := by
    decide +kernel
  rw [hstop] at hblocks
  cases hblocks

/-- A value that goes on over the end of a line. -/
def twoLineValue : String :=
  "p \x7b binding-path: \"a\r\nb\"; \x7d"

/-- A file of this text gives another sheet than the text. -/
theorem not_load_alike :
    ¬ ∀ (encoding : String) (codec : Codec) (s : String) (bytes : List Byte),
      Codec.ofName? encoding = some codec → codec.encode? s = some bytes →
        ∀ name, LoadsAlike (load (.file name bytes) encoding).result
          (load (.text s) encoding).result := by
  intro hall
  obtain ⟨bytes, hbytes⟩ :
      ∃ bytes, Encoding.utf8.codec.encode? twoLineValue = some bytes :=
    Option.isSome_iff_exists.1 (by decide +kernel)
  have halike := hall "utf-8" _ twoLineValue bytes ofName?_utf8 hbytes
    "page.bind"
  rw [load, result_load_file ofName?_utf8 hbytes] at halike
  have hunseen := (alike_unified_iff twoLineValue).1 halike
  have hread : ¬ ∀ sheet ∈ (Sheet.read twoLineValue).toOption,
      ∀ rule ∈ sheet.rules, ¬ rule.HoldsReturn := by decide +kernel
  refine hread fun sheet hsheet => hunseen.rules sheet ?_
  cases h : Sheet.read twoLineValue with
  | error e => rw [h] at hsheet; cases hsheet
  | ok other =>
      rw [h] at hsheet
      cases hsheet
      rfl

end Sheet

end SheetBinding
