import SheetBinding.Format
import SheetBinding.Proofs.Literal

/-!
# Numbers that are written without a format

A number is written in one of three ways. A whole number is a sign and digits,
and so is a decimal with no digits behind the point. A decimal with digits
behind the point is written in full (`Decimal.toText_eq_pointed`) if at most
five zeros have to be put in between, and else as its digits and a power of ten.

The first two are ways in which numbers are read, so the value comes back,
though a decimal without a point may come back as a whole number. What has a
power of ten is read as a text. There is one more way to lose a number: a
decimal is read with any number of digits, but when it is written without a
point, no more digits are converted than a whole number may have.
`plainText_number_iff` says that these two are all.
-/

namespace SheetBinding

open Text

namespace Decimal

variable {d : Decimal}

theorem digits_ne_nil (d : Decimal) : d.digits ≠ [] :=
  digitsOf_ne_nil d.coefficient

theorem toText_eq (d : Decimal) :
    d.toText = String.ofList (signText d.negative ++ d.unsignedText) := rfl

/-- Without digits behind the point there is no point. -/
theorem toText_of_exponent_eq_zero (h : d.exponent = 0) :
    d.toText = String.ofList (signText d.negative ++ d.digits) := by
  have hlength := List.length_pos_iff.2 d.digits_ne_nil
  have hplace : d.pointPlace = d.digits.length := by
    rw [pointPlace, h, Int.add_zero]
  rw [toText_eq, unsignedText, hplace, h, if_pos (by simp; omega), placePoint,
    if_neg (by omega), if_pos (by simp), Int.toNat_natCast, Nat.sub_self,
    List.replicate_zero, List.append_nil]

/-- With digits behind the point all digits are written out, unless too many
zeros would have to be. -/
theorem toText_eq_pointed (h : d.exponent < 0) (hplace : -6 < d.pointPlace) :
    d.toText = String.ofList d.pointed := by
  have hplace' : d.pointPlace = d.digits.length - d.exponent.natAbs := by
    rw [pointPlace]
    omega
  have hwritten : placePoint d.digits d.pointPlace =
      d.wholeDigits ++ '.' :: d.fractionDigits := by
    rw [placePoint, wholeDigits, fractionDigits, padded, ← digits,
      List.length_append, List.length_replicate]
    split
    · next hle =>
        -- The zeros that are put in front are one more than those behind the
        -- point.
        have hzeros : d.exponent.natAbs + 1 - d.digits.length =
            d.pointPlace.natAbs + 1 := by
          omega
        have hone : d.pointPlace.natAbs +
            1 + d.digits.length - d.exponent.natAbs = 1 := by
          omega
        rw [hzeros, hone]
        rfl
    · next hle =>
        have hzeros : d.exponent.natAbs + 1 - d.digits.length = 0 := by omega
        have htake : d.pointPlace.toNat =
            0 + d.digits.length - d.exponent.natAbs := by
          omega
        rw [if_neg (by omega), hzeros, ← htake]
        rfl
  rw [toText_eq, unsignedText, if_pos (by simpa using ⟨by omega, hplace⟩),
    hwritten, pointed]

/-- A power of ten follows digits. -/
theorem toText_of_small (hplace : d.pointPlace ≤ -6) :
    ∃ c rest e, d.toText =
      String.ofList (c :: (rest ++ 'E' :: exponentText e)) ∧
      (c = '-' ∨ c.isDigit = true) := by
  have htext : d.toText = String.ofList (signText d.negative ++
      (placePoint d.digits 1 ++ 'E' :: exponentText (d.pointPlace - 1))) := by
    rw [toText_eq, unsignedText, if_neg (by simpa using fun _ => hplace)]
  have hdigit : ∃ c rest, placePoint d.digits 1 = c :: rest ∧
      c.isDigit = true := by
    obtain ⟨c, rest, hds⟩ := List.exists_cons_of_ne_nil d.digits_ne_nil
    have hc : c.isDigit = true :=
      isDigit_of_mem_digitsOf (hds ▸ List.mem_cons_self ..)
    rw [placePoint, if_neg (by decide), hds]
    split
    · exact ⟨c, _, rfl, hc⟩
    · exact ⟨c, _, rfl, hc⟩
  rw [htext]
  cases d.negative with
  | true => exact ⟨'-', _, _, rfl, .inl rfl⟩
  | false =>
      obtain ⟨c, rest, hplaced, hc⟩ := hdigit
      rw [hplaced]
      exact ⟨c, rest, _, rfl, .inr hc⟩

theorem signed_ofInt (v : Int) : (ofInt v).signed = v := by
  rw [signed, ofInt]
  dsimp only
  by_cases h : v < 0
  · rw [if_pos (by simpa using h)]
    omega
  · rw [if_neg (by simpa using h)]
    omega

theorem sameValue_of_signed {a b : Decimal}
    (hexponent : a.exponent = b.exponent) (hsigned : a.signed = b.signed) :
    a.sameValue b = true := by
  rw [sameValue, hexponent, hsigned]
  simp

end Decimal

/-- The numbers whose text is read as a number: no power of ten is written, and
there is a point in the text or there are no more digits than are converted. -/
def Scalar.RendersPlainly : Scalar → Prop
  | .decimal d =>
    -6 < d.pointPlace ∧ (d.exponent < 0 ∨ d.digits.length ≤ Literal.maxDigits)
  | _ => True

namespace Literal

/-! ## Numbers that are read -/

theorem hasLiteral_ofWhole (negative : Bool) (ds : List Char) :
    (ofWhole negative ds).HasLiteral := by
  rw [ofWhole]
  generalize (if negative = true then -(natOfDigits ds : Int)
    else natOfDigits ds) = v
  split
  · next hfits => exact hfits
  · next hwide =>
      split
      · next hfits => exact ⟨by simpa using hwide, hfits⟩
      · exact Int.le_refl 0

/-- What is read has a literal: whole numbers are of the narrowest kind, and no
decimal needs zeros before its point. -/
theorem hasLiteral_of_scalar {s : String} {v : Scalar} (h : scalar s = .ok v) :
    v.HasLiteral := by
  unfold scalar ofTrimmed at h
  split at h
  · cases h
    trivial
  · split at h
    · next negative ds hwhole =>
        split at h
        · cases h
        · cases h
          exact hasLiteral_ofWhole negative ds
    · split at h
      · next negative before after hfraction =>
          cases h
          exact Int.neg_nonpos_of_nonneg (Int.natCast_nonneg _)
      · split at h
        · cases h
          trivial
        · cases h
          trivial

/-- The number that is read from a sign and digits. -/
theorem number?_ofWhole (negative : Bool) (ds : List Char) :
    ∃ d, (ofWhole negative ds).number? = some d ∧ d.exponent = 0 ∧
      d.signed = if negative then -(natOfDigits ds : Int)
        else natOfDigits ds := by
  rw [ofWhole]
  generalize hv : (if negative = true then -(natOfDigits ds : Int)
    else natOfDigits ds) = v
  split
  · exact ⟨_, rfl, rfl, Decimal.signed_ofInt v⟩
  · split
    · exact ⟨_, rfl, rfl, Decimal.signed_ofInt v⟩
    · refine ⟨_, rfl, rfl, ?_⟩
      rw [Decimal.signed, Decimal.ofDigits, List.append_nil, hv]

/-! ## Numbers that are written and read -/

theorem exists_last_exponentText (e : Int) :
    ∃ front c, Decimal.exponentText e = front ++ [c] ∧ isBlank c = false := by
  have hne := Decimal.digitsOf_ne_nil e.natAbs
  have hdigit := Decimal.isDigit_of_mem_digitsOf (List.getLast_mem hne)
  refine ⟨(if e < 0 then '-' else '+') :: (Decimal.digitsOf e.natAbs).dropLast,
    _, ?_, isBlank_of_mem (mem_bareChars hdigit)⟩
  rw [Decimal.exponentText, List.cons_append, List.dropLast_append_getLast hne]

/-- A number with a power of ten is read as a text. -/
theorem scalar_toText_of_small {d : Decimal} (hplace : d.pointPlace ≤ -6) :
    scalar d.toText = .ok (.text d.toText) := by
  obtain ⟨c, rest, e, htext, hc⟩ := Decimal.toText_of_small hplace
  have hbare : c ∈ bareChars := by
    rcases hc with rfl | hc
    · decide
    · exact mem_bareChars hc
  obtain ⟨front, last, he, hlast⟩ := exists_last_exponentText e
  have htrim : trim d.toText.toList = d.toText.toList := by
    rw [htext, String.toList_ofList]
    refine trim_of_ends ⟨c, _, rfl, isBlank_of_mem hbare⟩
      ⟨c :: (rest ++ 'E' :: front), last, ?_, hlast⟩
    rw [he]
    simp
  have hplain : IsPlain d.toText.toList := by
    rw [htext, String.toList_ofList]
    refine isPlain_of_power (by simp) fun first hfirst => ?_
    rw [← Option.some.inj hfirst]
    exact isQuote_of_isBare (isBare_of_mem hbare)
  have hend := trimEnd_trimEnd (trimStart d.toText.toList)
  rw [← trim, htrim] at hend
  rw [scalar, htrim, ofTrimmed_of_isPlain hplain hend, String.ofList_toList]

/-- A decimal without digits behind the point is written as a whole number, and
read as one. -/
theorem scalar_toText_of_whole {d : Decimal} (h : d.exponent = 0) :
    scalar d.toText =
      if maxDigits < d.digits.length then .error .tooManyDigits
      else .ok (ofWhole d.negative d.digits) := by
  have hbare : ∀ c ∈ Decimal.signText d.negative ++ d.digits, c ∈ bareChars :=
    mem_bareChars_of_signed fun c hc =>
      mem_bareChars (Decimal.isDigit_of_mem_digitsOf hc)
  have hne : Decimal.signText d.negative ++ d.digits ≠ [] := by
    simp [d.digits_ne_nil]
  rw [Decimal.toText_of_exponent_eq_zero h, scalar, String.toList_ofList,
    (isBareItem_of_mem hne hbare).trim_eq]
  exact ofTrimmed_of_isWhole (isWhole_digitsOf d.negative d.coefficient)

/-- A number that is written as its literal is read as itself. -/
theorem scalar_plainText {v : Scalar}
    (h : v.plainText = String.ofList (v.literal '"')) (hv : v.HasLiteral) :
    scalar v.plainText = .ok v := by
  rw [h]
  exact scalar_literal (by decide) hv

theorem plainText_number_iff {s : String} {v : Scalar} {d : Decimal}
    (h : scalar s = .ok v) (hd : v.number? = some d) :
    (∃ w e, scalar v.plainText = .ok w ∧ w.number? = some e ∧
      d.sameValue e = true) ↔
      v.RendersPlainly := by
  have hliteral := hasLiteral_of_scalar h
  cases v with
  | text t => cases hd
  | null => cases hd
  | int32 v =>
      cases hd
      have hread : scalar (Scalar.int32 v).plainText = .ok (.int32 v) :=
        scalar_plainText rfl hliteral
      exact iff_of_true ⟨_, _, hread, rfl,
        Decimal.sameValue_of_signed rfl rfl⟩ trivial
  | int64 v =>
      cases hd
      have hread : scalar (Scalar.int64 v).plainText = .ok (.int64 v) :=
        scalar_plainText rfl hliteral
      exact iff_of_true ⟨_, _, hread, rfl,
        Decimal.sameValue_of_signed rfl rfl⟩ trivial
  | decimal d =>
      cases hd
      rw [Scalar.RendersPlainly]
      by_cases hplace : -6 < d.pointPlace
      · rcases Int.lt_or_eq_of_le hliteral with hpoint | hwhole
        · have hread : scalar (Scalar.decimal d).plainText = .ok (.decimal d) :=
            scalar_plainText (Decimal.toText_eq_pointed hpoint hplace) hliteral
          exact iff_of_true ⟨_, d, hread, rfl,
            Decimal.sameValue_of_signed rfl rfl⟩ ⟨hplace, .inl hpoint⟩
        · rw [Scalar.plainText, scalar_toText_of_whole hwhole]
          split
          · next hlength =>
              refine iff_of_false ?_ (by omega)
              rintro ⟨w, e, hw, -⟩
              cases hw
          · next hlength =>
              obtain ⟨e, he, hexponent, hsigned⟩ :=
                number?_ofWhole d.negative d.digits
              rw [Decimal.digits, Decimal.natOfDigits_digitsOf] at hsigned
              exact iff_of_true ⟨_, e, rfl,
                he, Decimal.sameValue_of_signed (hwhole.trans hexponent.symm)
                hsigned.symm⟩ ⟨hplace, .inr (Nat.not_lt.1 hlength)⟩
      · rw [Scalar.plainText, scalar_toText_of_small (Int.not_lt.1 hplace)]
        refine iff_of_false ?_ fun h => hplace h.1
        rintro ⟨w, e, hw, he, -⟩
        cases hw
        cases he

/-- A number is written so that it is read as an equal number, unless a power of
ten is written or there are too many digits. -/
theorem rendered_number_iff {s : String} {v : Scalar} {d : Decimal}
    (h : scalar s = .ok v) (hd : v.number? = some d) :
    (∃ t w e, v.render none = .ok t ∧ scalar t = .ok w ∧ w.number? = some e ∧
      d.sameValue e = true) ↔ v.RendersPlainly := by
  rw [← plainText_number_iff h hd]
  constructor
  · rintro ⟨t, w, e, ht, hread⟩
    cases ht
    exact ⟨w, e, hread⟩
  · rintro ⟨w, e, hread⟩
    exact ⟨v.plainText, w, e, rfl, hread⟩

/-- A zero before the point is dropped, and one behind it is kept. -/
theorem rendered_number_iff_padded :
    scalar "-00.50" = .ok (.decimal ⟨true, 50, -2⟩) ∧
      ∃ t w e, (Scalar.decimal ⟨true, 50, -2⟩).render none = .ok t ∧
        scalar t = .ok w ∧ w.number? = some e ∧
        Decimal.sameValue ⟨true, 50, -2⟩ e = true := by
  have h : scalar "-00.50" = .ok (.decimal ⟨true, 50, -2⟩) := by decide
  exact ⟨h, (rendered_number_iff h rfl).2 ⟨by decide, .inl (by decide)⟩⟩

/-- Six zeros behind the point are enough for a power of ten. -/
theorem rendered_number_small :
    ¬ ∀ s v d, scalar s = .ok v → v.number? = some d →
      ∃ t w e, v.render none = .ok t ∧ scalar t = .ok w ∧ w.number? = some e ∧
        d.sameValue e = true := by
  intro h
  obtain ⟨t, w, e, ht, hw, he, -⟩ :=
    h ".0000001" (.decimal ⟨false, 1, -7⟩) ⟨false, 1, -7⟩ (by decide) rfl
  have htext : (Scalar.decimal ⟨false, 1, -7⟩).render none = .ok "1E-7" := by
    decide
  have hread : scalar "1E-7" = .ok (.text "1E-7") := by decide
  obtain rfl : "1E-7" = t := Except.ok.inj (htext.symm.trans ht)
  rw [hread] at hw
  cases hw
  cases he

end Literal

end SheetBinding
