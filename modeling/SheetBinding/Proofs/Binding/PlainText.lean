import Mathlib.Data.List.TakeWhile
import SheetBinding.Proofs.Binding.FailedWrite
import SheetBinding.Proofs.Binding.Write

/-!
# Plain text as markup

A text without angle brackets and ampersands has nothing in it that markup would
read in another way, and one without carriage returns is not normalized either.
Read as markup it is one run of text (`Markup.readContent_of_isPlain`), which
becomes the text of the element, and so it should not matter whether it is
written as text or as markup.

But a text at the front of markup is dropped if it is all blanks, and here it is
the whole of what is written. So a text of blanks is written as text and is not
written as markup, and this is the only difference (`Document.bind_plain`).
-/

namespace SheetBinding

open Text

namespace Markup

/-- A text that a document can hold and that has no character in it that means
anything in markup. -/
def IsPlain (s : String) : Prop :=
  storable s = true ∧ ∀ c ∈ s.toList, c ≠ '<' ∧ c ≠ '>' ∧ c ≠ '&' ∧ c ≠ '\r'

instance : DecidablePred IsPlain := fun s =>
  have := List.decidableBAll (fun c : Char => c ≠ '<' ∧ c ≠ '>' ∧ c ≠ '&' ∧
    c ≠ '\r') s.toList
  inferInstanceAs (Decidable (_ ∧ _))

/-- What is left of a text that stands at the front of markup. -/
def frontText (s : String) : String :=
  if allBlank s then "" else s

variable {s : String} {cs : List Char}

theorem normalize_of_not_mem (hreturn : '\r' ∉ cs) (hnull : '\x00' ∉ cs) :
    normalize cs = cs := by
  induction cs with
  | nil => rfl
  | cons c rest ih =>
      rw [List.mem_cons, not_or] at hreturn hnull
      rw [normalize.eq_def]
      split
      · next h => cases h
      · next h => cases h; exact absurd rfl hreturn.1
      · next h =>
          cases h
          rw [ih hreturn.2 hnull.2, if_neg (by simpa using Ne.symm hreturn.1),
            if_neg (by simpa using Ne.symm hnull.1)]

theorem resolveWithin_of_not_mem (inValue : Bool) (h : '&' ∉ cs) :
    resolveWithin inValue cs.length cs = cs := by
  induction cs with
  | nil => rfl
  | cons c rest ih =>
      rw [List.mem_cons, not_or] at h
      rw [List.length_cons, resolveWithin, if_neg (by simpa using Ne.symm h.1),
        ih h.2]

theorem piecesWithin_of_not_mem {c : Char} {rest : List Char}
    (hbracket : '<' ∉ c :: rest) (hreference : '&' ∉ c :: rest) :
    piecesWithin (c :: rest).length (c :: rest) =
      [.text (String.ofList (c :: rest))] := by
  have hc : ¬ (c == '<') = true := by
    rw [beq_iff_eq]
    rintro rfl
    exact hbracket (List.mem_cons_self ..)
  have hrest : ∀ d ∈ rest, (d != '<') = true := by
    intro d hd
    rw [bne_iff_ne]
    rintro rfl
    exact hbracket (List.mem_cons_of_mem _ hd)
  rw [List.length_cons, piecesWithin, if_neg hc]
  dsimp only
  rw [List.takeWhile_eq_self_iff.2 hrest, List.dropWhile_eq_nil_iff.2 hrest,
    resolve, resolveWithin_of_not_mem false hreference]
  cases rest.length <;> rfl

theorem eq_bracket_of_toLower {c : Char} (h : c.toLower = '<') : c = '<' := by
  by_cases hupper : c.val ≥ 'A'.val ∧ c.val ≤ 'Z'.val
  · -- A capital is moved to a small letter, and this is none.
    have hmoved := (dif_pos hupper).symm.trans h
    have hlow := UInt32.le_iff_toNat_le.1 hupper.1
    have hvalue := congrArg (fun d : Char => d.val.toNat) hmoved
    have hhigh := UInt32.le_iff_toNat_le.1 hupper.2
    simp at hlow hhigh hvalue
    omega
  · exact (dif_neg hupper).symm.trans h

theorem looksWhole_of_not_mem (h : '<' ∉ s.toList) : looksWhole s = false := by
  have hfront : ∀ pattern : String, '<' ∈ pattern.toList →
      (asciiLowercase (String.ofList ((trimStart s.toList).take 9))).startsWith
      pattern = false := by
    intro pattern hpattern
    rw [Bool.eq_false_iff, ne_eq, String.startsWith_string_iff]
    intro hprefix
    have hmem := hprefix.subset hpattern
    rw [asciiLowercase, String.toList_ofList, String.toList_ofList] at hmem
    obtain ⟨c, hc, hlower⟩ := List.mem_map.1 hmem
    rw [eq_bracket_of_toLower hlower] at hc
    exact h ((List.dropWhile_suffix _).subset
      ((List.take_prefix 9 _).subset hc))
  rw [looksWhole, hfront _ (by decide), hfront _ (by decide)]
  rfl

theorem contentOf_of_isPlain (h : IsPlain s) (next : Nat) :
    contentOf s next = (⟨s, []⟩, next) := by
  obtain ⟨hstorable, hplain⟩ := h
  rw [storable, List.all_eq_true] at hstorable
  have hnormal : normalize s.toList = s.toList := by
    refine normalize_of_not_mem (fun hc => (hplain _ hc).2.2.2 rfl) fun hc => ?_
    exact absurd (hstorable _ hc) (by decide)
  have hbracket : '<' ∉ s.toList := fun hc => (hplain _ hc).1 rfl
  have hreference : '&' ∉ s.toList := fun hc => (hplain _ hc).2.2.1 rfl
  rw [contentOf, pieces, hnormal]
  cases hs : s.toList with
  | nil =>
      rw [String.toList_eq_nil_iff.1 hs]
      rfl
  | cons c rest =>
      rw [hs] at hbracket hreference
      rw [piecesWithin_of_not_mem hbracket hreference, ← hs,
        String.ofList_toList]
      show (Content.mk ("" ++ s) [], next) = _
      rw [String.empty_append]

/-- Plain text holds no elements, and is kept unless it is all blanks. -/
theorem readContent_of_isPlain (h : IsPlain s) (next : Nat) :
    readContent s next = .ok (⟨frontText s, []⟩, next) := by
  rw [readContent, looksWhole_of_not_mem fun hc => (h.2 _ hc).1 rfl,
    if_neg Bool.false_ne_true, contentOf_of_isPlain h]
  dsimp only
  rw [Content.dropBlankText, frontText]
  split <;> rfl

theorem storable_frontText (h : storable s = true) :
    storable (frontText s) = true := by
  rw [frontText]
  split
  · rfl
  · exact h

theorem frontText_eq_self_iff :
    frontText s = s ↔ s = "" ∨ allBlank s = false := by
  rw [frontText]
  split
  · next hblank => rw [hblank, eq_comm]; simp
  · next hblank => simp [hblank]

end Markup

namespace Document

variable {doc : Document} {t : Nat} {node : Node} {s : String}

/-! ## What is found after a write -/

theorem find?_adopt {nodes : List Node} (h : t ∉ Node.idsAmong nodes) :
    (doc.adopt nodes).find? t = doc.find? t := by
  have hnodes : (nodes.map (·.withTail "")).findSome? (·.find? t) = none := by
    rw [List.findSome?_eq_none_iff]
    intro n hn
    refine Node.find?_of_not_mem fun ht => h ?_
    rw [← Node.idsAmong_map_withTail nodes]
    exact Node.ids_subset_idsAmong hn ht
  rw [find?, find?, trees, trees, adopt, List.findSome?_cons,
    List.findSome?_cons, List.findSome?_append, hnodes, Option.none_or]

theorem find?_clear (hdoc : doc.WellNumbered)
    (hfind : doc.find? t = some node) :
    (doc.clear t).find? t = some (node.withContent "" []) := by
  have hchildren : t ∉ Node.idsAmong node.children := by
    have hnodup := hdoc.nodup_ids_of_find? hfind
    rw [find?_eq_findAmong?] at hfind
    rw [Node.ids_eq_cons, (Node.findAmong?_some hfind).1,
      List.nodup_cons] at hnodup
    exact hnodup.1
  rw [clear, hfind]
  dsimp only
  rw [find?_adopt hchildren,
    find?_update_self (fun m => Node.id_withContent m _ _), hfind]
  rfl

theorem wellNumbered_clear (hdoc : doc.WellNumbered) :
    (doc.clear t).WellNumbered :=
  (edited_setMarkup (List.nodup_iff_count.1 hdoc.nodup t)
    (show (doc.setMarkup t "").failure = none from rfl)).wellNumbered hdoc

theorem setText_of_storable (hs : storable s = true) :
    doc.setText t s =
      ((doc.clear t).update t (·.withContent s [])).written := by
  rw [setText, if_pos hs]

theorem find?_setText (hdoc : doc.WellNumbered)
    (hfind : doc.find? t = some node) (hs : storable s = true) :
    (doc.setText t s).document.find? t = some (node.withContent s []) := by
  rw [setText_of_storable hs, written,
    find?_update_self (fun m => Node.id_withContent m _ _),
    find?_clear hdoc hfind]
  cases node <;> rfl

/-- Plain text is written as markup by writing what is left of it as text. -/
theorem setMarkup_of_isPlain (hdoc : doc.WellNumbered)
    (hfind : doc.find? t = some node) (hs : Markup.IsPlain s) :
    doc.setMarkup t s = doc.setText t (Markup.frontText s) := by
  rw [setText_of_storable (Markup.storable_frontText hs.1), setMarkup]
  dsimp only
  split
  · next hempty =>
      rw [eq_of_beq hempty, (wellNumbered_clear hdoc).update_eq_self
        (find?_clear hdoc hfind)]
      cases node <;> rfl
  · rw [Markup.readContent_of_isPlain hs]
    dsimp only
    rw [if_pos (Markup.storable_frontText hs.1)]
    rfl

/-! ## The two ways of writing -/

/-- A text that is not formatted is written as it is. -/
theorem bind_text {path : Option String} {place : Target}
    (hpath : Target.ofPath path = .ok place) (whenNull : NullBehavior) :
    doc.bind t path (.text s) none whenNull = doc.write t place s := by
  have hnull : (Scalar.text s == .null) = false := rfl
  have hrender : (Scalar.text s).render none = .ok s := rfl
  rw [bind, hpath]
  dsimp only
  rw [hnull, if_neg Bool.false_ne_true, hrender]

/-- Plain text is written into an element both as text and as markup. Either way
the element holds nothing else then and keeps its attributes and its tail, and
its text is the one that was written, but as markup a text of blanks is none.
Apart from such a text there is no difference at all. -/
theorem bind_plain {tag text tail : String} {as : Attributes}
    {children : List Node} (hdoc : doc.WellNumbered)
    (hfind : doc.find? t = some (.element t tag as text children tail))
    (hs : Markup.IsPlain s) {textPath markupPath : Option String}
    (htext : Target.ofPath textPath = .ok .text)
    (hmarkup : Target.ofPath markupPath = .ok .markup)
    (whenNull whenNull' : NullBehavior) :
    ∃ asText asMarkup,
      doc.bind t textPath (.text s) none whenNull = ⟨asText, none⟩ ∧
      doc.bind t markupPath (.text s) none whenNull' = ⟨asMarkup, none⟩ ∧
      asText.find? t = some (.element t tag as s [] tail) ∧
      asMarkup.find? t = some (.element t tag as (Markup.frontText s) [] tail) ∧
      (asMarkup = asText ↔ s = "" ∨ allBlank s = false) := by
  have hfront := Markup.storable_frontText hs.1
  have hasText := find?_setText hdoc hfind hs.1
  have hasMarkup := find?_setText hdoc hfind hfront
  refine ⟨(doc.setText t s).document,
    (doc.setText t (Markup.frontText s)).document, ?_, ?_, hasText,
    hasMarkup, ?_⟩
  · rw [bind_text htext, write, setText_of_storable hs.1]
    rfl
  · rw [bind_text hmarkup, write, setMarkup_of_isPlain hdoc hfind hs,
      setText_of_storable hfront]
    rfl
  · rw [← Markup.frontText_eq_self_iff]
    constructor
    · intro hsame
      rw [hsame, hasText, Option.some_inj] at hasMarkup
      exact (congrArg Node.text hasMarkup).symm
    · intro hsame
      rw [hsame]

/-- A text of one blank that is no space, and one that only begins with a
blank. -/
theorem bind_plain_blank :
    (∃ asText asMarkup,
      noteDocument.bind 1 (some "text") (.text "\u00a0") none .ignore =
        ⟨asText, none⟩ ∧
      noteDocument.bind 1 (some "html") (.text "\u00a0") none .ignore =
        ⟨asMarkup, none⟩ ∧
      asText.find? 1 = some (.element 1 "p" [("class", "a")] "\u00a0" [] "e") ∧
      asMarkup.find? 1 = some (.element 1 "p" [("class", "a")] "" [] "e") ∧
        asMarkup ≠ asText) ∧
    noteDocument.bind 1 (some "text") (.text " \u00e9\n") none .ignore =
      noteDocument.bind 1 (some "html") (.text " \u00e9\n") none .ignore := by
  have hdoc : noteDocument.WellNumbered := ⟨by decide, by decide⟩
  have hfind : noteDocument.find? 1 = some (.element 1 "p" [("class", "a")] "b"
      [.element 2 "i" [] "c" [] "d"] "e") := rfl
  have htextPath : Target.ofPath (some "text") = .ok .text := rfl
  have hmarkupPath : Target.ofPath (some "html") = .ok .markup := rfl
  constructor
  · obtain ⟨asText, asMarkup, htext, hmarkup, hfindText, hfindMarkup, hiff⟩ :=
      bind_plain (s := "\u00a0") hdoc hfind (by decide) htextPath hmarkupPath
        .ignore .ignore
    refine ⟨asText, asMarkup, htext, hmarkup, hfindText, hfindMarkup, ?_⟩
    rw [ne_eq, hiff]
    decide
  · obtain ⟨asText, asMarkup, htext, hmarkup, -, -, hiff⟩ :=
      bind_plain (s := " \u00e9\n") hdoc hfind (by decide) htextPath hmarkupPath
        .ignore .ignore
    rw [htext, hmarkup, hiff.2 (by decide)]

/-- A space is written as text, and as markup it is not. -/
theorem bind_plain_differs :
    ¬ ∀ (doc : Document) (t : Nat) (s : String), doc.WellNumbered →
      t ∈ doc.root.elementIds →
      Markup.IsPlain s →
      (doc.bind t (some "text") (.text s) none .ignore).document.find? t =
        (doc.bind t (some "html") (.text s) none .ignore).document.find? t := by
  intro hall
  have hsame := hall ⟨.element 0 "p" [] "old" [] "", [],
    1⟩ 0 " " ⟨by decide, by decide⟩ (by decide) (by decide)
  exact absurd (congrArg (·.map Node.text) hsame) (by decide)

end Document

end SheetBinding
