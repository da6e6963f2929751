import SheetBinding.Binding.Write
import SheetBinding.Proofs.Markup.Masking
import SheetBinding.Proofs.Markup.Places

/-!
# What a failed write leaves behind

A write can fail at four points: the path names no place, the value cannot be
rendered, a name or a text cannot be stored, or a text is no markup. The first
two come before anything is written. At the others it matters what is written.
An attribute is put only when all is well with it, but content is replaced in
two steps, and the old content is gone before the new one is looked at
(`bind_failed_cases`). So an element keeps its content in a failed write unless
it was the content that was being replaced; everything else stays as it was in
any case (`bind_failed`).
-/

namespace SheetBinding

/-- Whether a failure comes before anything is written. -/
def BindError.beforeWrite : BindError → Bool
  | path _ => true
  | format .. => true
  | _ => false

/-- Whether a place is the content of the element, as text or as markup. -/
def Target.isContent : Target → Bool
  | .text => true
  | .markup => true
  | .attribute _ => false

/-- The failure of a write to the path comes while content is being replaced. -/
def BindError.WhileReplacing (e : BindError) (path : Option String) : Prop :=
  e.beforeWrite = false ∧ ∃ place, Target.ofPath path = .ok place ∧
    place.isContent = true

namespace Document

variable {doc after : Document} {t : Nat} {e : BindError}

/-! ## The stages of a write -/

theorem setAttribute_failed {name value : String}
    (h : (doc.setAttribute t name value).failure = some e) :
    (doc.setAttribute t name value).document = doc := by
  rw [setAttribute] at h ⊢
  split at h
  · rfl
  · next plain _ =>
      split at h
      · cases h
      · next hs => rw [if_neg hs, failed]

theorem deleteAttribute_failed {name : String}
    (h : (doc.deleteAttribute t name).failure = some e) :
    (doc.deleteAttribute t name).document = doc := by
  rw [deleteAttribute] at h ⊢
  split at h
  · rfl
  · cases h

theorem setText_failed {s : String} (h : (doc.setText t s).failure = some e) :
    (doc.setText t s).document = doc.clear t ∧ e.beforeWrite = false := by
  rw [setText] at h ⊢
  split at h
  · cases h
  · next hs =>
      cases h
      rw [if_neg hs]
      exact ⟨rfl, rfl⟩

theorem setMarkup_failed {s : String}
    (h : (doc.setMarkup t s).failure = some e) :
    (doc.setMarkup t s).document = doc.clear t ∧ e.beforeWrite = false := by
  rw [setMarkup] at h ⊢
  dsimp only at h ⊢
  split at h
  · cases h
  · next hs =>
      rw [if_neg hs]
      split at h
      · cases h
        exact ⟨rfl, rfl⟩
      · next content next _ =>
          split at h
          · cases h
          · next hstorable =>
              cases h
              rw [if_neg hstorable]
              exact ⟨rfl, rfl⟩

/-- A text that cannot be written leaves the document alone if it is for an
attribute, and the element empty if it is for the content. -/
theorem write_failed {place : Target} {s : String}
    (h : (doc.write t place s).failure = some e) :
    (doc.write t place s).document = doc ∧ place.isContent = false ∨
      (doc.write t place s).document = doc.clear t ∧ place.isContent = true ∧
        e.beforeWrite = false := by
  match place with
  | .text =>
      rw [write] at h ⊢
      obtain ⟨hdoc, he⟩ := setText_failed h
      exact .inr ⟨hdoc, rfl, he⟩
  | .markup =>
      rw [write] at h ⊢
      obtain ⟨hdoc, he⟩ := setMarkup_failed h
      exact .inr ⟨hdoc, rfl, he⟩
  | .attribute name =>
      rw [write] at h ⊢
      exact .inl ⟨setAttribute_failed h, rfl⟩

theorem takeAway_failed {place : Target}
    (h : (doc.takeAway t place).failure = some e) :
    (doc.takeAway t place).document = doc ∧ place.isContent = false := by
  match place with
  | .text | .markup => cases h
  | .attribute name => exact ⟨deleteAttribute_failed h, rfl⟩

variable {path format : Option String} {value : Scalar}
  {nullBehavior : NullBehavior}

theorem bind_failed_cases
    (h : (doc.bind t path value format nullBehavior).failure = some e) :
    (doc.bind t path value format nullBehavior).document = doc ∧
      ¬ e.WhileReplacing path ∨
      (doc.bind t path value format nullBehavior).document = doc.clear t ∧
        e.WhileReplacing path := by
  rw [bind] at h ⊢
  cases hplace : Target.ofPath path with
  | error cause =>
      rw [hplace] at h
      cases h
      exact .inl ⟨rfl, fun hreplacing => Bool.noConfusion hreplacing.1⟩
  | ok place =>
      rw [hplace] at h
      dsimp only at h ⊢
      have hnot (hp : place.isContent = false) : ¬ e.WhileReplacing path := by
        rintro ⟨-, other, hother, hcontent⟩
        cases hplace.symm.trans hother
        exact Bool.noConfusion (hp.symm.trans hcontent)
      have hwrite {s : String} (hs : (doc.write t place s).failure = some e) :
          (doc.write t place s).document = doc ∧ ¬ e.WhileReplacing path ∨
          (doc.write t place s).document = doc.clear t ∧
          e.WhileReplacing path := by
        rcases write_failed hs with ⟨hdoc, hp⟩ | ⟨hdoc, hp, he⟩
        · exact .inl ⟨hdoc, hnot hp⟩
        · exact .inr ⟨hdoc, he, place, hplace, hp⟩
      split at h
      · next hnull =>
          rw [if_pos hnull]
          cases nullBehavior with
          | ignore => cases h
          | empty => exact hwrite h
          | remove =>
              obtain ⟨hdoc, hp⟩ := takeAway_failed h
              exact .inl ⟨hdoc, hnot hp⟩
      · next hnull =>
          rw [if_neg hnull]
          split at h
          · next fault hrender =>
              cases h
              exact .inl ⟨rfl, fun hreplacing => Bool.noConfusion hreplacing.1⟩
          · exact hwrite h

/-! ## Emptying an element -/

variable {tag : String} {as : Attributes} {text tail : String}
  {children : List Node}

theorem find?_of_find?_root {n : Node} (h : doc.root.find? t = some n) :
    doc.find? t = some n := by
  rw [find?_eq_findAmong?]
  exact Node.findAmong?_of_head h

theorem clear_eq_self (hdoc : doc.WellNumbered)
    (hfind : doc.find? t = some (.element t tag as "" [] tail)) : doc.clear t =
      doc := by
  rw [clear, hfind]
  exact hdoc.update_eq_self hfind rfl

/-- Emptying an element shows in the tree, unless the element is empty
already. -/
theorem root_clear_eq_iff (hdoc : doc.WellNumbered)
    (hfind : doc.root.find? t = some (.element t tag as text children tail)) :
    (doc.clear t).root = doc.root ↔ text = "" ∧ children = [] := by
  constructor
  · -- The element can be found in both trees, so what is found is the same.
    intro hroot
    have hcleared : (doc.clear t).root.find? t =
        some (.element t tag as "" [] tail) := by
      rw [root_clear,
        Node.find?_update_self (fun m => Node.id_withContent m _ _), hfind]
      rfl
    rw [hroot, hfind] at hcleared
    cases hcleared
    exact ⟨rfl, rfl⟩
  · rintro ⟨rfl, rfl⟩
    rw [clear_eq_self hdoc (find?_of_find?_root hfind)]

/-! ## A failed write -/

/-- Whatever makes a write fail, the tree is as it was before just when no
content was being replaced or there was none; then the whole document is.
Otherwise the element has lost its content, and nothing else in the tree has
changed. -/
theorem bind_failed (hdoc : doc.WellNumbered)
    (hfind : doc.root.find? t = some (.element t tag as text children tail))
    (h : doc.bind t path value format nullBehavior = ⟨after, some e⟩) :
    (after.root = doc.root ↔ ¬ e.WhileReplacing path ∨ text = "" ∧
      children = []) ∧
    (after.root = doc.root → after = doc) ∧
    (after.root ≠ doc.root → after = doc.clear t ∧
      after.root = doc.root.update t (·.withContent "" [])) := by
  have hcases := bind_failed_cases (congrArg Written.failure h)
  rw [h] at hcases
  dsimp only at hcases
  rcases hcases with ⟨rfl, hnot⟩ | ⟨rfl, hreplacing⟩
  · exact ⟨iff_of_true rfl (.inl hnot), fun _ => rfl, fun hne => absurd rfl hne⟩
  · have hiff := root_clear_eq_iff hdoc hfind
    refine ⟨?_, fun hroot => ?_, fun _ => ⟨rfl, root_clear doc t⟩⟩
    · rw [hiff, or_iff_right (not_not_intro hreplacing)]
    · obtain ⟨rfl, rfl⟩ := hiff.1 hroot
      exact clear_eq_self hdoc (find?_of_find?_root hfind)

/-- A paragraph with a note in it, and text after it. -/
def noteDocument : Document where
  root :=
    .element 0 "div" [] ""
      [.element 1 "p" [("class", "a")] "b"
        [.element 2 "i" [] "c" [] "d"] "e"] ""
  detached := []
  nextId := 3

/-- A control character is no text, and the note is lost. -/
theorem bind_failed_control :
    noteDocument.bind 1 (some "text") (.text "\u0001") none .ignore =
      ⟨noteDocument.clear 1, some .unstorable⟩ ∧
    (noteDocument.clear 1).root ≠ noteDocument.root ∧
    (noteDocument.clear 1).root =
      noteDocument.root.update 1 (·.withContent "" []) := by
  have hdoc : noteDocument.WellNumbered := ⟨by decide, by decide⟩
  have hfind : noteDocument.root.find? 1 = some (.element 1 "p" [("class", "a")]
      "b" [.element 2 "i" [] "c" [] "d"] "e") := rfl
  have hbind : noteDocument.bind 1 (some "text") (.text "\u0001") none .ignore =
      ⟨noteDocument.clear 1, some .unstorable⟩ := by
    rfl
  obtain ⟨hiff, -, hlost⟩ := bind_failed hdoc hfind hbind
  have hne : (noteDocument.clear 1).root ≠ noteDocument.root := by
    rw [ne_eq, hiff]
    rintro (hnot | ⟨htext, -⟩)
    · exact hnot ⟨rfl, .text, rfl, rfl⟩
    · exact absurd htext (by decide)
  exact ⟨hbind, hne, (hlost hne).2⟩

/-- Binding such a text takes the text away that was there. -/
theorem bind_failed_loses_text :
    ¬ ∀ (doc after : Document) (t : Nat) (path : Option String) (value : Scalar)
      (format : Option String) (nullBehavior : NullBehavior) (e : BindError),
      doc.WellNumbered → t ∈ doc.root.elementIds →
      doc.bind t path value format nullBehavior = ⟨after, some e⟩ →
        after.root = doc.root := by
  intro hall
  have hbind : (⟨.element 0 "p" [] "old" [] "", [], 1⟩ : Document).bind 0
      (some "text") (.text "\u0001") none .ignore =
      ⟨⟨.element 0 "p" [] "" [] "", [], 1⟩, some .unstorable⟩ := by
    rfl
  have hroot := hall _ _ _ _ _ _ _ _ ⟨by decide, by decide⟩ (by decide) hbind
  exact absurd (congrArg Node.text hroot) (by decide)

end Document

end SheetBinding
