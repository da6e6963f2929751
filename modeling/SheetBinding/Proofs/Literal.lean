import SheetBinding.Proofs.Grammar.Language
import SheetBinding.Proofs.Literal.Items

/-!
# Every value has a literal

`Scalar.literal` writes a value so that it is read as that value and no other: a
text between quotes, whatever it holds; a whole number in digits, which says by
its size how wide it is; a decimal always with a point, which no whole number
has.

A literal passes several scanners on its way back, and each has its own idea of
where it ends. They agree because only two kinds of literals are written. A
quoted one ends at its closing quote for all of them. The others are made of a
few characters (`bareChars`) that no scanner takes for a delimiter, a blank or a
quote.
-/

namespace SheetBinding

open Text

namespace Scalar

/-- The values that have a literal of their own: a whole number must be of the
narrowest kind that holds it, and a decimal must not need zeros between its
digits and the point. -/
def HasLiteral : Scalar → Prop
  | text _ => True
  | int32 v => fitsInt32 v = true
  | int64 v => fitsInt32 v = false ∧ fitsInt64 v = true
  | decimal d => d.exponent ≤ 0
  | null => True

instance : DecidablePred HasLiteral := fun v =>
  match v with
  | text _ => .isTrue trivial
  | int32 v => inferInstanceAs (Decidable (fitsInt32 v = true))
  | int64 v =>
    inferInstanceAs (Decidable (fitsInt32 v = false ∧ fitsInt64 v = true))
  | decimal d => inferInstanceAs (Decidable (d.exponent ≤ 0))
  | null => .isTrue trivial

/-- The literal of a value; a text is put between quotes of the kind `q`. -/
def literal (q : Char) : Scalar → List Char
  | text s => enquote q s.toList
  | int32 v => Decimal.intText v
  | int64 v => Decimal.intText v
  | decimal d => d.pointed
  | null => "<null>".toList

theorem literal_text (q : Char) (s : String) :
    (text s).literal q = enquote q s.toList := rfl

theorem literal_int32 (q : Char) (v : Int) :
    (int32 v).literal q = Decimal.intText v := rfl

theorem literal_int64 (q : Char) (v : Int) :
    (int64 v).literal q = Decimal.intText v := rfl

end Scalar

namespace Literal

/-! ## The shape of literals -/

/-- The characters that stand outside quotes. -/
def bareChars : List Char :=
  "-.0123456789<nul>".toList

theorem mem_bareChars {c : Char} (h : c.isDigit = true) : c ∈ bareChars :=
  forall_digit (p := (· ∈ bareChars)) (by decide) h

theorem mem_bareChars_of_signed {negative : Bool} {cs : List Char}
    (h : ∀ c ∈ cs, c ∈ bareChars) :
    ∀ c ∈ Decimal.signText negative ++ cs, c ∈ bareChars := by
  cases negative with
  | true => exact List.forall_mem_cons.2 ⟨by decide, h⟩
  | false => exact h

/-- A literal is a quoted text or made of bare characters. -/
theorem literal_cases (q : Char) (v : Scalar) :
    (∃ s, v = .text s) ∨ v.literal q ≠ [] ∧
      ∀ c ∈ v.literal q, c ∈ bareChars := by
  have hwhole : ∀ v, Decimal.intText v ≠ [] ∧
      ∀ c ∈ Decimal.intText v, c ∈ bareChars := by
    intro v
    rw [Decimal.intText_eq]
    exact ⟨by
      simp [Decimal.digitsOf_ne_nil], mem_bareChars_of_signed fun c hc =>
      mem_bareChars (Decimal.isDigit_of_mem_digitsOf hc)⟩
  cases v with
  | text s => exact .inl ⟨s, rfl⟩
  | int32 v => exact .inr (hwhole v)
  | int64 v => exact .inr (hwhole v)
  | decimal d =>
      have hne : d.pointed ≠ [] := by simp [Decimal.pointed]
      refine .inr ⟨hne, mem_bareChars_of_signed ?_⟩
      refine List.forall_mem_append.2 ⟨fun c hc =>
        mem_bareChars (Decimal.isDigit_of_mem_wholeDigits hc), ?_⟩
      exact List.forall_mem_cons.2 ⟨by decide, fun c hc =>
        mem_bareChars (Decimal.isDigit_of_mem_fractionDigits hc)⟩
  | null =>
      have hall : "<null>".toList.all bareChars.contains = true := by decide
      refine .inr ⟨List.cons_ne_nil _ _, fun c hc => ?_⟩
      exact List.contains_iff_mem.1 (List.all_eq_true.1 hall c hc)

theorem isBare_of_mem {c : Char} (h : c ∈ bareChars) : isBare c = true := by
  have hall : bareChars.all isBare = true := by decide
  exact List.all_eq_true.1 hall c h

theorem isBlank_of_mem {c : Char} (h : c ∈ bareChars) : isBlank c = false := by
  have hall : bareChars.all (!isBlank ·) = true := by decide
  simpa using List.all_eq_true.1 hall c h

theorem isValueChar_of_mem {c : Char} (h : c ∈ bareChars) :
    Grammar.isValueChar c = true := by
  have hall : bareChars.all Grammar.isValueChar = true := by decide
  exact List.all_eq_true.1 hall c h

variable {q : Char} {v : Scalar}

theorem isBareItem_of_mem {cs : List Char} (hne : cs ≠ [])
    (h : ∀ c ∈ cs, c ∈ bareChars) :
    IsBareItem cs where
  isBare c hc := isBare_of_mem (h c hc)
  first := by
    obtain ⟨c, rest, rfl⟩ := List.exists_cons_of_ne_nil hne
    exact ⟨c, rest, rfl, isBlank_of_mem (h c (List.mem_cons_self ..))⟩
  last :=
    ⟨cs.dropLast, cs.getLast hne, (List.dropLast_append_getLast hne).symm,
      isBlank_of_mem (h _ (List.getLast_mem hne))⟩

/-- A literal can stand in a list. -/
theorem isItem_literal (hq : isQuote q = true) (v : Scalar) :
    IsItem (v.literal q) := by
  rcases literal_cases q v with ⟨s, rfl⟩ | ⟨hne, hall⟩
  · exact .inl ⟨_, q, hq, inner_escape q s.toList, rfl⟩
  · exact .inr (isBareItem_of_mem hne hall)

theorem trim_literal (hq : isQuote q = true) (v : Scalar) :
    trim (v.literal q) = v.literal q :=
  (isItem_literal hq v).trim_eq

theorem units_literal (hq : isQuote q = true) (v : Scalar) :
    Grammar.Units Grammar.isValueChar (v.literal q) := by
  rcases literal_cases q v with ⟨s, rfl⟩ | ⟨-, hall⟩
  · exact .quoted hq (inner_escape q s.toList) .nil
  · exact .of_forall fun c hc => isValueChar_of_mem (hall c hc)

/-! ## Reading a literal -/

theorem sign_signText (negative : Bool) :
    Sign negative (Decimal.signText negative) := by
  cases negative with
  | true => exact .minus
  | false => exact .missing

theorem isWhole_digitsOf (negative : Bool) (n : Nat) :
    IsWhole negative (Decimal.digitsOf n)
      (Decimal.signText negative ++ Decimal.digitsOf n) :=
  ⟨_, sign_signText _, Decimal.digitsOf_ne_nil _,
    fun _ hc => isDigit_of_written (Decimal.isDigit_of_mem_digitsOf hc), rfl⟩

/-- What has a point is a decimal. -/
theorem isFraction_pointed (d : Decimal) :
    IsFraction d.negative d.wholeDigits d.fractionDigits d.pointed := by
  refine ⟨_, sign_signText _, by simp [d.wholeDigits_ne_nil], ?_, rfl⟩
  exact List.forall_mem_append.2
    ⟨fun c hc => isDigit_of_written (Decimal.isDigit_of_mem_wholeDigits hc),
      fun c hc => isDigit_of_written (Decimal.isDigit_of_mem_fractionDigits hc)⟩

/-- The number that a sign and the digits of its absolute value spell. -/
theorem ofWhole_digitsOf (v : Int) (h : Scalar.fitsInt64 v = true) :
    ofWhole (decide (v < 0)) (Decimal.digitsOf v.natAbs) =
      if Scalar.fitsInt32 v then .int32 v else .int64 v := by
  have hvalue : (if decide (v < 0) = true then -(v.natAbs : Int)
      else v.natAbs) = v := by
    by_cases hneg : v < 0
    · rw [if_pos (by simpa using hneg)]
      omega
    · rw [if_neg (by simpa using hneg)]
      omega
  rw [ofWhole, Decimal.natOfDigits_digitsOf, hvalue, h]
  rfl

theorem ofTrimmed_intText (v : Int) (h : Scalar.fitsInt64 v = true) :
    ofTrimmed (Decimal.intText v) =
      .ok (if Scalar.fitsInt32 v then .int32 v else .int64 v) := by
  have hlength : (Decimal.digitsOf v.natAbs).length ≤ maxDigits := by
    have hbound : v.natAbs < Nat.pow 10 19 := by
      rw [show Nat.pow 10 19 = 10000000000000000000 from rfl]
      simp only [Scalar.fitsInt64, Bool.and_eq_true, decide_eq_true_eq] at h
      omega
    exact Nat.le_trans (Decimal.length_digitsOf_le (by decide) hbound)
      (by decide)
  rw [Decimal.intText_eq, ofTrimmed_of_isWhole (isWhole_digitsOf _ _),
    if_neg (by omega), ofWhole_digitsOf v h]

theorem fitsInt64_of_fitsInt32 {v : Int} (h : Scalar.fitsInt32 v = true) :
    Scalar.fitsInt64 v = true := by
  simp only [Scalar.fitsInt32, Scalar.fitsInt64, Bool.and_eq_true,
    decide_eq_true_eq] at h ⊢
  omega

theorem ofTrimmed_pointed {d : Decimal} (h : d.exponent ≤ 0) :
    ofTrimmed d.pointed = .ok (.decimal d) := by
  rw [ofTrimmed_of_isFraction (isFraction_pointed d),
    Decimal.ofDigits_pointed h]

/-- A literal is read as the value that it was written for. -/
theorem ofTrimmed_literal (hq : isQuote q = true) (hv : v.HasLiteral) :
    ofTrimmed (v.literal q) = .ok v := by
  cases v with
  | text s =>
      rw [Scalar.literal_text, ofTrimmed, unquote?_enquote hq]
      dsimp only
      rw [String.ofList_toList]
  | int32 v =>
      have hfits : Scalar.fitsInt32 v = true := hv
      rw [Scalar.literal_int32,
        ofTrimmed_intText v (fitsInt64_of_fitsInt32 hfits), if_pos hfits]
  | int64 v =>
      rw [Scalar.literal_int64, ofTrimmed_intText v hv.2,
        if_neg (by simp [hv.1])]
  | decimal d => exact ofTrimmed_pointed hv
  | null => rfl

theorem scalar_literal (hq : isQuote q = true) (hv : v.HasLiteral) :
    scalar (String.ofList (v.literal q)) = .ok v := by
  rw [scalar, String.toList_ofList, trim_literal hq, ofTrimmed_literal hq hv]

/-! ## Lists -/

/-- The literals of values; each value comes with the kind of quotes it is to
have if it is a text. -/
def literals (items : List (Char × Scalar)) : List (List Char) :=
  items.map fun i => i.2.literal i.1

/-- The literal of a list. -/
def listLiteral (items : List (Char × Scalar)) : List Char :=
  '[' :: ([',', ' '].intercalate (literals items) ++ [']'])

/-- What follows an item in a list: the items behind it, each with a comma
before it, and the bracket. -/
def behind : List (Char × Scalar) → List Char
  | [] => [']']
  | i :: rest => ',' :: ' ' :: (i.2.literal i.1 ++ behind rest)

theorem listLiteral_cons (i : Char × Scalar) (rest : List (Char × Scalar)) :
    listLiteral (i :: rest) = '[' :: (i.2.literal i.1 ++ behind rest) := by
  rw [listLiteral]
  refine congrArg ('[' :: ·) ?_
  induction rest generalizing i with
  | nil => rw [literals, List.map_singleton, List.intercalate_singleton, behind]
  | cons next rest ih =>
      rw [behind, ← ih next, literals, List.map_cons,
        List.intercalate_cons_of_ne_nil (by simp)]
      simp [literals]

theorem exists_slotsBehind {rest : List (Char × Scalar)}
    (hq : ∀ i ∈ rest, isQuote i.1 = true) :
    ∃ slots, SlotsBehind slots (behind rest) ∧
      slots.map Slot.item = literals rest := by
  induction rest with
  | nil => exact ⟨[], .close, rfl⟩
  | cons i rest ih =>
      obtain ⟨hi, hrest⟩ := List.forall_mem_cons.1 hq
      obtain ⟨slots, hbehind, hslots⟩ := ih hrest
      have hspaced : SlotsBehind _ (',' ::
          ([' '] ++ (i.2.literal i.1 ++ []) ++ behind rest)) := .comma ⟨[' '],
        i.2.literal i.1, [], by decide, isItem_literal hi i.2, gap_nil⟩ hbehind
      rw [List.append_nil] at hspaced
      exact ⟨_, hspaced, congrArg (i.2.literal i.1 :: ·) hslots⟩

theorem items?_listLiteral {items : List (Char × Scalar)}
    (hq : ∀ i ∈ items, isQuote i.1 = true) :
    items? (listLiteral items) = some (literals items) := by
  cases items with
  | nil => rfl
  | cons i rest =>
      obtain ⟨hi, hrest⟩ := List.forall_mem_cons.1 hq
      obtain ⟨slots, hbehind, hslots⟩ := exists_slotsBehind hrest
      have hlist : IsList _ ('[' ::
          ([] ++ (i.2.literal i.1 ++ []) ++ behind rest)) := .items ⟨[],
        i.2.literal i.1, [], gap_nil, isItem_literal hi i.2, gap_nil⟩ hbehind
      rw [List.append_nil, List.nil_append, ← listLiteral_cons] at hlist
      exact items?_eq_some_iff.2 ⟨_, hlist,
        congrArg (i.2.literal i.1 :: ·) hslots⟩

theorem ofItems_literals {items : List (Char × Scalar)}
    (hq : ∀ i ∈ items, isQuote i.1 = true) (hv : ∀ i ∈ items, i.2.HasLiteral) :
    ofItems (literals items) = .ok (items.map (·.2)) := by
  induction items with
  | nil => rfl
  | cons i rest ih =>
      obtain ⟨hqi, hqrest⟩ := List.forall_mem_cons.1 hq
      obtain ⟨hvi, hvrest⟩ := List.forall_mem_cons.1 hv
      rw [literals, List.map_cons, ofItems, trim_literal hqi,
        ofTrimmed_literal hqi hvi]
      dsimp only
      rw [← literals, ih hqrest hvrest]
      rfl

theorem trim_listLiteral (items : List (Char × Scalar)) :
    trim (listLiteral items) = listLiteral items := by
  rw [listLiteral, trim_cons (by decide), trimEnd_concat (by decide)]

theorem list_listLiteral {items : List (Char × Scalar)}
    (hq : ∀ i ∈ items, isQuote i.1 = true) (hv : ∀ i ∈ items, i.2.HasLiteral) :
    list (String.ofList (listLiteral items)) = .ok (items.map (·.2)) := by
  rw [list, String.toList_ofList, trim_listLiteral, items?_listLiteral hq]
  exact ofItems_literals hq hv

theorem units_behind {rest : List (Char × Scalar)}
    (hq : ∀ i ∈ rest, isQuote i.1 = true) :
    Grammar.Units Grammar.isValueChar (behind rest) := by
  induction rest with
  | nil => exact .plain (by decide) .nil
  | cons i rest ih =>
      obtain ⟨hi, hrest⟩ := List.forall_mem_cons.1 hq
      exact .plain (by decide) (.plain (by decide)
        ((units_literal hi i.2).append (ih hrest)))

/-! ## Literals as values of settings -/

theorem isText_literal (hq : isQuote q = true) (v : Scalar) :
    Grammar.IsText Grammar.isValueChar (v.literal q) := by
  obtain ⟨c, rest, hv, hc, -⟩ := (isItem_literal hq v).exists_cons
  exact ⟨units_literal hq v, c, rest, hv, hc⟩

theorem isText_listLiteral {items : List (Char × Scalar)}
    (hq : ∀ i ∈ items, isQuote i.1 = true) :
    Grammar.IsText Grammar.isValueChar (listLiteral items) := by
  refine ⟨?_, '[', _, rfl, by decide⟩
  cases items with
  | nil => exact .plain (by decide) (.plain (by decide) .nil)
  | cons i rest =>
      obtain ⟨hi, hrest⟩ := List.forall_mem_cons.1 hq
      rw [listLiteral_cons]
      exact .plain (by decide) ((units_literal hi i.2).append
        (units_behind hrest))

end Literal

end SheetBinding
