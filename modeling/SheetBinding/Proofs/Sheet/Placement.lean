import SheetBinding.Proofs.Grammar.Stopping
import SheetBinding.Proofs.Result
import SheetBinding.Sheet

/-!
# The place that an error tells

Where a text goes wrong is told as a line and a column. They are counted in the
text as it is read (`Reading.exists_stop_of_rejection?`), and a text is trimmed
before it is read. So the blanks that it opens with are left out of the count,
whatever it is read as: a text that is moved down by empty lines is rejected at
the same place as before (`Reading.rejection?_append`), and the place told is
that in the given text only if those blanks hold no line feed and do not stand
on the line of the place.
-/

namespace SheetBinding

open Text

/-- The blanks that a text opens with. -/
def Text.lead (s : String) : List Char :=
  s.toList.takeWhile isBlank

/-- So many empty lines. -/
def Text.emptyLines (k : Nat) : String :=
  String.ofList (List.replicate k '\n')

/-- The place so many lines further down. -/
def Position.down (k : Nat) (p : Position) : Position :=
  ⟨p.line + k, p.column⟩

theorem Position.down_eq_self_iff {k : Nat} {p : Position} :
    p.down k = p ↔ k = 0 := by
  obtain ⟨line, column⟩ := p
  simp [down]

namespace ReadError

/-- The place where the text goes wrong, if it is the text that does. -/
def place? : ReadError → Option Position
  | malformedSheet p | malformedRule p | malformedSetting p => some p
  | rule _ => none

/-- The same error, telling another place. -/
def mapPlace (f : Position → Position) : ReadError → ReadError
  | malformedSheet p => malformedSheet (f p)
  | malformedRule p => malformedRule (f p)
  | malformedSetting p => malformedSetting (f p)
  | rule e => rule e

theorem mapPlace_eq_self_iff {e : ReadError} {p : Position}
    (hp : e.place? = some p) {f : Position → Position} :
    e.mapPlace f = e ↔ f p = p := by
  cases e with
  | malformedSheet q | malformedRule q | malformedSetting q =>
      cases hp
      simp [mapPlace]
  | rule cause => cases hp

end ReadError

/-- What a text can be read as. -/
inductive Reading where
  | sheet
  | rule
  | setting
  deriving DecidableEq, Repr

namespace Reading

/-- The error of a result, if it is one. -/
def errorOf? {ε α : Type} : Except ε α → Option ε
  | .error e => some e
  | .ok _ => none

/-- Why a text cannot be read so, if it cannot. -/
def rejection? (s : String) : Reading → Option ReadError
  | sheet => errorOf? (Sheet.read s)
  | rule => errorOf? (Rule.read s)
  | setting => errorOf? (Settings.readPair s)

/-- Where a text, as it stands, stops having the right shape, if it does. -/
def stop? (text : List Char) : Reading → Option Grammar.Stop
  | sheet => errorOf? (Grammar.sheetBlocks text)
  | rule => errorOf? (Grammar.oneBlock text)
  | setting => errorOf? (Grammar.oneSetting text)

variable {r : Reading} {s : String} {e : ReadError} {p : Position}

theorem errorOf?_eq_some_iff {ε α : Type} {x : Except ε α} {d : ε} :
    errorOf? x = some d ↔ x = .error d := by
  cases x <;> simp [errorOf?]

theorem place?_of_mapError {α : Type} {x : Except RuleError α}
    (h : x.mapError .rule = .error e) :
    e.place? = none := by
  obtain ⟨cause, -, rfl⟩ := mapError_eq_error_iff.1 h
  rfl

theorem rejection?_append {w : List Char} (hw : ∀ c ∈ w, isBlank c = true)
    (r : Reading) (s : String) :
    r.rejection? (String.ofList w ++ s) = r.rejection? s := by
  have htrim : trim (String.ofList w ++ s).toList = trim s.toList := by
    rw [String.toList_append, String.toList_ofList, trim_append_of_blank hw]
  cases r with
  | sheet => rw [rejection?, rejection?, Sheet.read, Sheet.read, htrim]
  | rule => rw [rejection?, rejection?, Rule.read, Rule.read, htrim]
  | setting =>
      rw [rejection?, rejection?, Settings.readPair, Settings.readPair, htrim]

theorem suffix_of_stop? {text : List Char} {stop : Grammar.Stop}
    (h : r.stop? text = some stop) :
    stop.left <:+ text := by
  cases r with
  | sheet => exact Grammar.suffix_of_sheetBlocks (errorOf?_eq_some_iff.1 h)
  | rule => exact Grammar.suffix_of_oneBlock (errorOf?_eq_some_iff.1 h)
  | setting => exact Grammar.suffix_of_oneSetting (errorOf?_eq_some_iff.1 h)

theorem exists_stop_of_rejection? (h : r.rejection? s = some e)
    (hp : e.place? = some p) :
    ∃ stop, r.stop? (trim s.toList) = some stop ∧
      p = .ofLeft (trim s.toList) stop.left := by
  cases r with
  | sheet =>
      have h := errorOf?_eq_some_iff.1 h
      rw [Sheet.read] at h
      split at h
      · next stop hstop =>
          cases h
          cases hp
          exact ⟨stop, errorOf?_eq_some_iff.2 hstop, rfl⟩
      · cases (place?_of_mapError h).symm.trans hp
  | rule =>
      have h := errorOf?_eq_some_iff.1 h
      rw [Rule.read] at h
      dsimp only at h
      split at h
      · next stop hstop =>
          -- Inside a setting the error has another name, but it tells the same
          -- place.
          have hplace : p = .ofLeft (trim s.toList) stop.left := by
            cases h
            split at hp <;> cases hp <;> rfl
          exact ⟨stop, errorOf?_eq_some_iff.2 hstop, hplace⟩
      · cases (place?_of_mapError h).symm.trans hp
  | setting =>
      have h := errorOf?_eq_some_iff.1 h
      rw [Settings.readPair] at h
      split at h
      · next stop hstop =>
          cases h
          cases hp
          exact ⟨stop, errorOf?_eq_some_iff.2 hstop, rfl⟩
      · cases h

/-- The text goes wrong right after `front`, and what is told is the place after
`front` in a text that does not open with blanks. It is the place in the given
text only if none of those blanks is a line feed, and the place is on a later
line or there are none at all; and no empty line that is put in front of the
text moves it. -/
theorem rejection?_place (h : r.rejection? s = some e)
    (hp : e.place? = some p) :
    (∃ stop front trail, r.stop? (trim s.toList) = some stop ∧
      trim s.toList = front ++ stop.left ∧
      s.toList = lead s ++ (front ++ stop.left ++ trail) ∧
      p = .after front ∧
      (.after (lead s ++ front) = p ↔
        '\n' ∉ lead s ∧ (lead s = [] ∨ p.line ≠ 1))) ∧
    (∀ w : List Char, (∀ c ∈ w, isBlank c = true) →
      r.rejection? (String.ofList w ++ s) = some e) ∧
    ∀ k, r.rejection? (emptyLines k ++ s) = some (e.mapPlace (·.down k)) ↔
      k = 0 := by
  have hblanks : ∀ w : List Char, (∀ c ∈ w, isBlank c = true) →
      r.rejection? (String.ofList w ++ s) = some e := fun w hw => by
    rw [rejection?_append hw, h]
  refine ⟨?_, hblanks, fun k => ?_⟩
  · obtain ⟨stop, hstop, hplace⟩ := exists_stop_of_rejection? h hp
    obtain ⟨front, hfront⟩ := suffix_of_stop? hstop
    obtain ⟨trail, -, htrail⟩ := exists_trimEnd (trimStart s.toList)
    have hafter : p = .after front := by
      rw [hplace, ← hfront, Position.ofLeft_append]
    refine ⟨stop, front, trail, hstop, hfront.symm, ?_, hafter, ?_⟩
    · calc s.toList = lead s ++ trimStart s.toList :=
        List.takeWhile_append_dropWhile.symm
        _ = lead s ++ (trim s.toList ++ trail) := congrArg _ htrail
        _ = lead s ++ (front ++ stop.left ++ trail) := by rw [hfront]
    · rw [hafter, Position.after_append]
      exact Position.behind_eq_self_iff
  · have hlines : ∀ c ∈ List.replicate k '\n', isBlank c = true :=
      fun c hc => by
      rw [List.eq_of_mem_replicate hc]
      rfl
    rw [emptyLines, hblanks _ hlines, Option.some_inj, eq_comm,
      ReadError.mapPlace_eq_self_iff hp, Position.down_eq_self_iff]

/-- A rule that lacks a colon, in a text that opens with an empty line and two
spaces. -/
def uncolonedRule : String :=
  "\n  p \x7b\n  binding-path a;\n\x7d"

/-- The colon is missed on the third line, and told to be missed on the
second. -/
theorem rejection?_place_uncoloned :
    rule.rejection? uncolonedRule = some (.malformedSetting ⟨2, 16⟩) ∧
    (∃ stop front trail, rule.stop? (trim uncolonedRule.toList) = some stop ∧
      trim uncolonedRule.toList = front ++ stop.left ∧
      uncolonedRule.toList = lead uncolonedRule ++
        (front ++ stop.left ++ trail) ∧
      (⟨2, 16⟩ : Position) = .after front ∧
        .after (lead uncolonedRule ++ front) ≠
        (⟨2, 16⟩ : Position)) ∧
    rule.rejection? (emptyLines 1 ++ uncolonedRule) =
      some (.malformedSetting ⟨2, 16⟩) ∧
    rule.rejection? (emptyLines 1 ++ uncolonedRule) ≠
      some (.malformedSetting ⟨3, 16⟩) := by
  have h : rule.rejection? uncolonedRule =
      some (.malformedSetting ⟨2, 16⟩) := by
    decide +kernel
  obtain ⟨⟨stop, front, trail, hstop, hfront, htext, hafter, hiff⟩, hblanks,
      hlines⟩ := rejection?_place h rfl
  have hline := hblanks ['\n'] (List.forall_mem_singleton.2 rfl)
  refine ⟨h, ⟨stop, front, trail, hstop, hfront, htext, hafter, ?_⟩, hline, ?_⟩
  · rw [ne_eq, hiff]
    exact fun hlead => hlead.1 (by decide +kernel)
  · exact fun hmoved => absurd ((hlines 1).1 hmoved) (by decide)

/-- A brace that closes nothing is told to be on the first line, also when it is
on the second. -/
theorem rejection?_emptyLine :
    ¬ ∀ (r : Reading) (s : String) (e : ReadError) (p : Position) (k : Nat),
      r.rejection? s = some e → e.place? = some p →
      r.rejection? (emptyLines k ++ s) = some (e.mapPlace (·.down k)) := by
  intro hall
  have hbrace : sheet.rejection? "\x7d" = some (.malformedSheet ⟨1, 1⟩) := by
    decide +kernel
  have hmoved : sheet.rejection? (emptyLines 1 ++ "\x7d") =
      some (.malformedSheet ⟨1, 1⟩) := by
    decide +kernel
  have := hmoved.symm.trans (hall sheet "\x7d" _ ⟨1, 1⟩ 1 hbrace rfl)
  cases this

end Reading

end SheetBinding
