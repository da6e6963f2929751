import Mathlib.Data.List.Induction
import Mathlib.Data.Nat.Digits.Defs
import SheetBinding.Literal
import SheetBinding.Proofs.Decimal
import SheetBinding.Proofs.Text.Blank
import SheetBinding.Proofs.Text.Quotation

/-!
# The kinds of scalar literals

A scalar literal is tried as a quoted text, as a whole number, as a decimal and
as null, in this order, and what is none of them stands for itself. Each kind is
described here by the texts that it consists of, with no word on how they are
found, and the readers are shown to find just these (`whole?_eq_some_iff`,
`fraction?_eq_some_iff`, `unquote?_isSome_iff`).

No text is of two kinds: a number begins with no quote, and a whole number has
no point. So the order in which the kinds are tried settles nothing, and
`scalar_by_kind` can say of each kind alone what its texts denote.
-/

namespace SheetBinding

open Text

namespace Literal

/-! ## The texts of each kind -/

/-- A text between quotes. -/
def IsQuoted (inner cs : List Char) : Prop :=
  ∃ q, isQuote q = true ∧ Inner q inner ∧ cs = q :: (inner ++ [q])

/-- The sign in front of a number, which may be missing, and whether it is a
minus. -/
inductive Sign : Bool → List Char → Prop where
  | missing : Sign false []
  | plus : Sign false ['+']
  | minus : Sign true ['-']

/-- A sign and one digit or more. -/
def IsWhole (negative : Bool) (ds cs : List Char) : Prop :=
  ∃ sign, Sign negative sign ∧ ds ≠ [] ∧ (∀ c ∈ ds, isDigit c = true) ∧
    cs = sign ++ ds

/-- A sign, and digits with a point before, among or behind them. -/
def IsFraction (negative : Bool) (before after cs : List Char) : Prop :=
  ∃ sign, Sign negative sign ∧ before ++ after ≠ [] ∧
    (∀ c ∈ before ++ after, isDigit c = true) ∧
    cs = sign ++ (before ++ '.' :: after)

theorem IsWhole.forall_isDigit {negative : Bool} {ds cs : List Char}
    (h : IsWhole negative ds cs) :
    ∀ c ∈ ds, isDigit c = true :=
  h.elim fun _ h => h.2.2.1

theorem IsFraction.forall_isDigit {negative : Bool}
    {before after cs : List Char} (h : IsFraction negative before after cs) :
    ∀ c ∈ before ++ after, isDigit c = true :=
  h.elim fun _ h => h.2.2.1

/-- The number that digits denote, whatever scripts they are from. -/
def digitsValue (ds : List Char) : Nat :=
  Nat.ofDigits 10 (ds.reverse.filterMap digitValue?)

theorem natOfDigits_eq_digitsValue {ds : List Char}
    (h : ∀ c ∈ ds, isDigit c = true) :
    natOfDigits ds = digitsValue ds := by
  induction ds using List.reverseRecOn with
  | nil => rfl
  | append_singleton front c ih =>
      obtain ⟨hfront, hc⟩ := List.forall_mem_append.1 h
      obtain ⟨n, hn⟩ := Option.isSome_iff_exists.1
        (hc c (List.mem_singleton_self c))
      have hstep : natOfDigits (front ++ [c]) = 10 * natOfDigits front + n := by
        rw [natOfDigits, List.foldl_append, List.foldl_cons, List.foldl_nil, hn]
        rfl
      rw [hstep, ih hfront, digitsValue, digitsValue, List.reverse_append,
        List.reverse_singleton, List.singleton_append,
        List.filterMap_cons_some hn, Nat.ofDigits_cons]
      exact Nat.add_comm _ _

/-! ## Signs and digits -/

theorem takeSign_eq {negative : Bool} {sign rest : List Char}
    (h : Sign negative sign) (hrest : ∀ c ∈ rest.head?, c ≠ '-' ∧ c ≠ '+') :
    Decimal.takeSign (sign ++ rest) = (negative, rest) := by
  cases h with
  | plus | minus => rfl
  | missing =>
      rw [List.nil_append, Decimal.takeSign.eq_def]
      split
      · next more => exact absurd rfl (hrest '-' rfl).1
      · next more => exact absurd rfl (hrest '+' rfl).2
      · rfl

theorem exists_sign (cs : List Char) :
    ∃ sign, Sign (Decimal.takeSign cs).1 sign ∧
      cs = sign ++ (Decimal.takeSign cs).2 := by
  rw [Decimal.takeSign.eq_def]
  split
  · exact ⟨['-'], .minus, rfl⟩
  · exact ⟨['+'], .plus, rfl⟩
  · exact ⟨[], .missing, rfl⟩

theorem ne_sign_of_isDigit {c : Char} (h : isDigit c = true) :
    c ≠ '-' ∧ c ≠ '+' := by
  constructor <;> rintro rfl <;> cases h

theorem whole?_eq_some_iff {negative : Bool} {ds cs : List Char} :
    whole? cs = some (negative, ds) ↔ IsWhole negative ds cs := by
  constructor
  · intro h
    obtain ⟨sign, hsign, hcs⟩ := exists_sign cs
    rw [whole?] at h
    dsimp only at h
    split at h
    · cases h
    · next hds =>
        cases h
        rw [Bool.or_eq_true, not_or, List.isEmpty_iff] at hds
        exact ⟨sign, hsign, hds.1, by simpa using hds.2, hcs⟩
  · rintro ⟨sign, hsign, hne, hds, rfl⟩
    have hhead : ∀ c ∈ ds.head?, c ≠ '-' ∧ c ≠ '+' := fun c hc =>
      ne_sign_of_isDigit (hds c (List.mem_of_mem_head? hc))
    rw [whole?, takeSign_eq hsign hhead]
    exact if_neg (by simpa [hne] using hds)

/-- There are digits on one side of the point or the other. -/
theorem not_both_isEmpty_iff {before after : List Char} :
    (!(before.isEmpty && after.isEmpty)) = true ↔ before ++ after ≠ [] := by
  cases before <;> cases after <;> simp

theorem fraction?_eq_some_iff {negative : Bool} {before after cs : List Char} :
    fraction? cs = some (negative, before, after) ↔
      IsFraction negative before after cs := by
  constructor
  · intro h
    obtain ⟨sign, hsign, hcs⟩ := exists_sign cs
    rw [fraction?] at h
    dsimp only at h
    split at h
    · next more hmore =>
        split at h
        · next hds =>
            cases h
            rw [Bool.and_eq_true, List.all_eq_true] at hds
            refine ⟨sign, hsign, not_both_isEmpty_iff.1 hds.2,
              List.forall_mem_append.2 ⟨fun c hc => List.mem_takeWhile_imp hc,
              hds.1⟩, ?_⟩
            rw [← hmore, List.takeWhile_append_dropWhile]
            exact hcs
        · cases h
    · cases h
  · rintro ⟨sign, hsign, hne, hds, rfl⟩
    obtain ⟨hbefore, hafter⟩ := List.forall_mem_append.1 hds
    have hhead : ∀ c ∈ (before ++ '.' :: after).head?, c ≠ '-' ∧ c ≠ '+' := by
      intro c hc
      cases before with
      | nil =>
          cases hc
          decide
      | cons d before =>
          cases hc
          exact ne_sign_of_isDigit (hbefore _ (List.mem_cons_self ..))
    have hpoint : ¬ isDigit '.' = true := by decide
    rw [fraction?, takeSign_eq hsign hhead]
    dsimp only
    rw [List.takeWhile_append_of_pos hbefore,
      List.dropWhile_append_of_pos hbefore, List.takeWhile_cons_of_neg hpoint,
      List.dropWhile_cons_of_neg hpoint, List.append_nil]
    exact if_pos (Bool.and_eq_true_iff.2
      ⟨List.all_eq_true.2 hafter, not_both_isEmpty_iff.2 hne⟩)

/-! ## Quotes -/

theorem unquote?_of_isQuoted {inner cs : List Char} (h : IsQuoted inner cs) :
    unquote? cs = some (unescape inner) := by
  obtain ⟨q, hq, hinner, rfl⟩ := h
  exact unquote?_eq_some_iff.2 ⟨q, inner, hq, hinner, .inl rfl, rfl⟩

/-- A text that does not end in a blank is unquoted just if it is quoted from
end to end. -/
theorem unquote?_isSome_iff {cs : List Char} (hend : trimEnd cs = cs) :
    (unquote? cs).isSome = true ↔ ∃ inner, IsQuoted inner cs := by
  rw [Option.isSome_iff_exists]
  constructor
  · rintro ⟨content, h⟩
    obtain ⟨q, inner, hq, hinner, rfl | rfl, -⟩ := unquote?_eq_some_iff.1 h
    · exact ⟨inner, q, hq, hinner, rfl⟩
    · -- The line feed that is let pass behind the quote is a blank.
      have hsplit : q :: (inner ++ [q, '\n']) =
          (q :: (inner ++ [q])) ++ ['\n'] := by
        simp
      rw [hsplit] at hend
      cases isBlank_of_trimEnd_concat hend
  · rintro ⟨inner, h⟩
    exact ⟨_, unquote?_of_isQuoted h⟩

/-- A number begins with a sign, a digit or a point, and so with no quote. -/
theorem unquote?_signed {negative : Bool} {sign rest : List Char}
    (h : Sign negative sign)
    (hrest : ∃ c more, rest = c :: more ∧ isQuote c = false) :
    unquote? (sign ++ rest) = none := by
  obtain ⟨c, more, rfl, hc⟩ := hrest
  cases h with
  | plus => exact unquote?_cons (by decide) _
  | minus => exact unquote?_cons (by decide) _
  | missing => exact unquote?_cons hc more

theorem isQuote_of_isDigit {c : Char} (h : isDigit c = true) :
    isQuote c = false := by
  cases hc : isQuote c with
  | false => rfl
  | true => rcases isQuote_iff.1 hc with rfl | rfl <;> cases h

theorem unquote?_of_isWhole {negative : Bool} {ds cs : List Char}
    (h : IsWhole negative ds cs) :
    unquote? cs = none := by
  obtain ⟨sign, hsign, hne, hds, rfl⟩ := h
  obtain ⟨c, rest, rfl⟩ := List.exists_cons_of_ne_nil hne
  exact unquote?_signed hsign ⟨c, rest, rfl,
    isQuote_of_isDigit (hds c (List.mem_cons_self ..))⟩

theorem unquote?_of_isFraction {negative : Bool} {before after cs : List Char}
    (h : IsFraction negative before after cs) : unquote? cs = none := by
  obtain ⟨sign, hsign, -, hds, rfl⟩ := h
  refine unquote?_signed hsign ?_
  cases before with
  | nil => exact ⟨'.', after, rfl, by decide⟩
  | cons c before =>
      exact ⟨c, _, rfl, isQuote_of_isDigit (hds c (List.mem_cons_self ..))⟩

theorem Sign.eq_of_mem {negative : Bool} {sign : List Char}
    (h : Sign negative sign) {c : Char} (hc : c ∈ sign) :
    c = '-' ∨ c = '+' := by
  cases h <;> simp_all

theorem IsWhole.mem_cases {negative : Bool} {ds cs : List Char}
    (h : IsWhole negative ds cs) {c : Char} (hc : c ∈ cs) :
    (c = '-' ∨ c = '+') ∨ isDigit c = true := by
  obtain ⟨sign, hsign, -, hds, rfl⟩ := h
  exact (List.mem_append.1 hc).imp hsign.eq_of_mem (hds c)

theorem IsFraction.mem_cases {negative : Bool} {before after cs : List Char}
    (h : IsFraction negative before after cs) {c : Char} (hc : c ∈ cs) :
    (c = '-' ∨ c = '+') ∨ c = '.' ∨ isDigit c = true := by
  obtain ⟨sign, hsign, -, hds, rfl⟩ := h
  obtain ⟨hbefore, hafter⟩ := List.forall_mem_append.1 hds
  refine (List.mem_append.1 hc).imp hsign.eq_of_mem fun hc => ?_
  rcases List.mem_append.1 hc with hc | hc
  · exact .inr (hbefore c hc)
  · exact (List.mem_cons.1 hc).imp_right (hafter c)

/-- A decimal has a point, and a whole number has none. -/
theorem whole?_of_isFraction {negative : Bool} {before after cs : List Char}
    (h : IsFraction negative before after cs) : whole? cs = none := by
  obtain ⟨sign, -, -, -, hcs⟩ := h
  have hpoint : '.' ∈ cs := by simp [hcs]
  refine Option.eq_none_iff_forall_ne_some.2 fun r hr => ?_
  rcases (whole?_eq_some_iff.1 hr).mem_cases hpoint with (h | h) | h <;> cases h

theorem ofTrimmed_of_isQuoted {inner cs : List Char} (h : IsQuoted inner cs) :
    ofTrimmed cs = .ok (.text (String.ofList (unescape inner))) := by
  rw [ofTrimmed, unquote?_of_isQuoted h]

theorem ofTrimmed_of_isWhole {negative : Bool} {ds cs : List Char}
    (h : IsWhole negative ds cs) :
    ofTrimmed cs =
      if maxDigits < ds.length then .error .tooManyDigits
        else .ok (ofWhole negative ds) := by
  rw [ofTrimmed, unquote?_of_isWhole h]
  dsimp only
  rw [whole?_eq_some_iff.2 h]

theorem ofTrimmed_of_isFraction {negative : Bool} {before after cs : List Char}
    (h : IsFraction negative before after cs) :
    ofTrimmed cs = .ok (.decimal (Decimal.ofDigits negative before after)) := by
  rw [ofTrimmed, unquote?_of_isFraction h]
  dsimp only
  rw [whole?_of_isFraction h]
  dsimp only
  rw [fraction?_eq_some_iff.2 h]

/-! ## One kind for each text -/

/-- The kinds of scalar literals. -/
inductive Kind where
  | quoted
  | whole
  | fraction
  | null
  | plain
  deriving DecidableEq, Repr

/-- Texts that are no literals of any other kind. -/
def IsPlain (cs : List Char) : Prop :=
  (∀ inner, ¬ IsQuoted inner cs) ∧ (∀ negative ds, ¬ IsWhole negative ds cs) ∧
    (∀ negative before after, ¬ IsFraction negative before after cs) ∧
      cs ≠ "<null>".toList

/-- The texts of a kind. -/
def Kind.Fits : Kind → List Char → Prop
  | quoted, cs => ∃ inner, IsQuoted inner cs
  | whole, cs => ∃ negative ds, IsWhole negative ds cs
  | fraction, cs => ∃ negative before after, IsFraction negative before after cs
  | null, cs => cs = "<null>".toList
  | plain, cs => IsPlain cs

/-- The first kind that a text is found to be of. -/
def kindOf (cs : List Char) : Kind :=
  if (unquote? cs).isSome then .quoted
  else if (whole? cs).isSome then .whole
  else if (fraction? cs).isSome then .fraction
  else if cs = "<null>".toList then .null
  else .plain

variable {cs : List Char}

theorem whole?_isSome_iff :
    (whole? cs).isSome = true ↔ ∃ negative ds, IsWhole negative ds cs := by
  rw [Option.isSome_iff_exists, Prod.exists]
  simp only [whole?_eq_some_iff]

theorem fraction?_isSome_iff :
    (fraction? cs).isSome = true ↔
      ∃ negative before after, IsFraction negative before after cs := by
  simp only [Option.isSome_iff_exists, Prod.exists, fraction?_eq_some_iff]

/-- Nothing is found in a text that is of no kind. -/
theorem readers_of_isPlain (h : IsPlain cs) (hend : trimEnd cs = cs) :
    unquote? cs = none ∧ whole? cs = none ∧ fraction? cs = none := by
  obtain ⟨hquoted, hwhole, hfraction, -⟩ := h
  simp only [← Option.not_isSome_iff_eq_none, unquote?_isSome_iff hend,
    whole?_isSome_iff, fraction?_isSome_iff]
  push Not
  exact ⟨hquoted, hwhole, hfraction⟩

theorem fits_kindOf (hend : trimEnd cs = cs) : (kindOf cs).Fits cs := by
  rw [kindOf]
  split
  · next hquoted => exact (unquote?_isSome_iff hend).1 hquoted
  · next hquoted =>
      split
      · next hwhole => exact whole?_isSome_iff.1 hwhole
      · next hwhole =>
          split
          · next hfraction => exact fraction?_isSome_iff.1 hfraction
          · next hfraction =>
              split
              · next hnull => exact hnull
              · next hnull =>
                  rw [unquote?_isSome_iff hend] at hquoted
                  rw [whole?_isSome_iff] at hwhole
                  rw [fraction?_isSome_iff] at hfraction
                  push Not at hquoted hwhole hfraction
                  exact ⟨hquoted, hwhole, hfraction, hnull⟩

theorem kindOf_of_fits {kind : Kind} (h : kind.Fits cs)
    (hend : trimEnd cs = cs) :
    kindOf cs = kind := by
  cases kind with
  | quoted =>
      obtain ⟨inner, h⟩ := h
      rw [kindOf, unquote?_of_isQuoted h]
      rfl
  | whole =>
      obtain ⟨negative, ds, h⟩ := h
      rw [kindOf, unquote?_of_isWhole h, whole?_eq_some_iff.2 h]
      rfl
  | fraction =>
      obtain ⟨negative, before, after, h⟩ := h
      rw [kindOf, unquote?_of_isFraction h, whole?_of_isFraction h,
        fraction?_eq_some_iff.2 h]
      rfl
  | null =>
      obtain rfl : cs = "<null>".toList := h
      decide
  | plain =>
      obtain ⟨hquote, hdigits, hpoint⟩ := readers_of_isPlain h hend
      rw [kindOf, hquote, hdigits, hpoint]
      exact if_neg h.2.2.2

theorem ofTrimmed_of_isPlain (h : IsPlain cs) (hend : trimEnd cs = cs) :
    ofTrimmed cs = .ok (.text (String.ofList cs)) := by
  obtain ⟨hquote, hdigits, hpoint⟩ := readers_of_isPlain h hend
  rw [ofTrimmed, hquote]
  dsimp only
  rw [hdigits]
  dsimp only
  rw [hpoint]
  exact if_neg (by simpa using h.2.2.2)

/-- No number has a letter in it. -/
theorem isPlain_of_power (hpower : 'E' ∈ cs)
    (hfirst : ∀ c ∈ cs.head?, isQuote c = false) :
    IsPlain cs := by
  refine ⟨fun inner h => ?_, fun negative ds h => ?_,
    fun negative before after h => ?_, ?_⟩
  · obtain ⟨q, hq, -, rfl⟩ := h
    rw [hfirst q rfl] at hq
    cases hq
  · rcases h.mem_cases hpower with (h | h) | h <;> cases h
  · rcases h.mem_cases hpower with (h | h) | h | h <;> cases h
  · rintro rfl
    exact absurd hpower (by decide)

/-! ## What scalar literals denote -/

theorem ofWhole_eq {ds : List Char} (h : ∀ c ∈ ds, isDigit c = true)
    (negative : Bool) {v : Int}
    (hv : v = if negative then -(digitsValue ds : Int) else digitsValue ds) :
    ofWhole negative ds =
      if -2 ^ 31 ≤ v ∧ v ≤ 2 ^ 31 - 1 then .int32 v
      else if -2 ^ 63 ≤ v ∧ v ≤ 2 ^ 63 - 1 then .int64 v
      else .decimal ⟨negative, digitsValue ds, 0⟩ := by
  rw [ofWhole, natOfDigits_eq_digitsValue h, ← hv, Decimal.ofDigits,
    List.append_nil, natOfDigits_eq_digitsValue h]
  simp only [Scalar.fitsInt32, Scalar.fitsInt64, Bool.and_eq_true,
    decide_eq_true_eq]
  rfl

/-- Every text is of one kind, and what it denotes depends on that alone. -/
theorem scalar_by_kind (s : String) :
    (∃! kind : Kind, kind.Fits (trim s.toList)) ∧
    (∀ inner, IsQuoted inner (trim s.toList) →
      scalar s = .ok (.text (String.ofList (unescape inner)))) ∧
    (∀ negative ds, IsWhole negative ds (trim s.toList) → ds.length ≤ 4300 →
      ∃ v : Int, v = (if negative then -(digitsValue ds : Int)
        else digitsValue ds) ∧
        scalar s = .ok (
          if -2 ^ 31 ≤ v ∧ v ≤ 2 ^ 31 - 1 then .int32 v
          else if -2 ^ 63 ≤ v ∧ v ≤ 2 ^ 63 - 1 then .int64 v
          else .decimal ⟨negative, digitsValue ds, 0⟩)) ∧
    (∀ negative before after, IsFraction negative before after (trim s.toList) →
      scalar s = .ok (.decimal ⟨negative, digitsValue (before ++ after),
        -(after.length : Int)⟩)) ∧
    (trim s.toList = "<null>".toList → scalar s = .ok .null) ∧
    (IsPlain (trim s.toList) → scalar s = .ok (.text (trimmed s))) := by
  have hend : trimEnd (trim s.toList) = trim s.toList := trimEnd_trimEnd _
  refine ⟨⟨kindOf (trim s.toList), fits_kindOf hend, fun kind hkind =>
    (kindOf_of_fits hkind hend).symm⟩, ?_, ?_, ?_, ?_, ?_⟩
  · intro inner hquoted
    exact ofTrimmed_of_isQuoted hquoted
  · intro negative ds hwhole hlength
    have hshort : ¬ maxDigits < ds.length := Nat.not_lt.2 hlength
    refine ⟨_, rfl, ?_⟩
    rw [scalar, ofTrimmed_of_isWhole hwhole, if_neg hshort,
      ofWhole_eq hwhole.forall_isDigit negative rfl]
  · intro negative before after hfraction
    rw [scalar, ofTrimmed_of_isFraction hfraction, Decimal.ofDigits,
      natOfDigits_eq_digitsValue hfraction.forall_isDigit]
  · intro hnull
    rw [scalar, hnull]
    rfl
  · intro hplain
    exact ofTrimmed_of_isPlain hplain hend

/-- The least number of 64 bits, in digits of another script and with zeros
before them, and a number between quotes. -/
theorem scalar_by_kind_samples :
    scalar " -٠٠٩٢٢٣٣٧٢٠٣٦٨٥٤٧٧٥٨٠٨\n" = .ok (.int64 (-9223372036854775808)) ∧
      scalar "\"-0\\07\"" = .ok (.text "-007") := by
  constructor
  · obtain ⟨-, -, hwhole, -⟩ := scalar_by_kind " -٠٠٩٢٢٣٣٧٢٠٣٦٨٥٤٧٧٥٨٠٨\n"
    obtain ⟨v, rfl, hv⟩ := hwhole true "٠٠٩٢٢٣٣٧٢٠٣٦٨٥٤٧٧٥٨٠٨".toList
      ⟨['-'], .minus, by decide, List.all_eq_true.1 (by decide), by decide⟩
      (by decide)
    rw [hv]
    decide
  · obtain ⟨-, hquoted, -⟩ := scalar_by_kind "\"-0\\07\""
    have hclose : closeQuote? '"' "-0\\07\"".toList =
        some ("-0\\07".toList, []) := by
      decide
    rw [hquoted "-0\\07".toList
      ⟨'"', by decide, inner_of_closeQuote? hclose, by decide⟩]
    decide

/-! ## Numbers with too many digits -/

/-- A whole number with more digits than are converted. -/
def Overlong (cs : List Char) : Prop :=
  ∃ negative ds, whole? cs = some (negative, ds) ∧ maxDigits < ds.length

theorem ofTrimmed_eq_error_iff {cs : List Char} {e : LiteralError} :
    ofTrimmed cs = .error e ↔ Overlong cs ∧ e = .tooManyDigits := by
  constructor
  · intro h
    unfold ofTrimmed at h
    split at h
    · cases h
    · split at h
      · next negative ds hwhole =>
          split at h
          · next hlength =>
              cases h
              exact ⟨⟨negative, ds, hwhole, hlength⟩, rfl⟩
          · cases h
      · split at h
        · cases h
        · split at h <;> cases h
  · rintro ⟨⟨negative, ds, hwhole, hlength⟩, rfl⟩
    rw [ofTrimmed, unquote?_of_isWhole (whole?_eq_some_iff.1 hwhole)]
    dsimp only
    rw [hwhole]
    exact if_pos hlength

end Literal

end SheetBinding
