import Mathlib.Data.List.TakeWhile
import SheetBinding.Text.Blank
import SheetBinding.Text.Word

/-!
# Blanks and gaps

Two notions of white space meet in a sheet: the few characters that may stand
between tokens, and all that Unicode calls blank, which are trimmed off. Every
gap is blank, and that one inclusion is what lets a token that has run on into a
gap be trimmed back to what it should have been.

Trimming at the end stops at the last character that is not blank, wherever that
stands, so what precedes such a character is never looked at
(`trimEnd_append_cons`).
-/

namespace SheetBinding.Text

/-- A run of gap characters, possibly empty. -/
def Gap (w : List Char) : Prop :=
  ∀ c ∈ w, isGap c = true

instance : DecidablePred Gap :=
  List.decidableBAll (isGap · = true)

theorem gap_nil : Gap [] := by
  intro c hc
  cases hc

theorem Gap.cons {c : Char} {w : List Char} (hc : isGap c = true) (h : Gap w) :
    Gap (c :: w) :=
  List.forall_mem_cons.2 ⟨hc, h⟩

theorem Gap.append {w v : List Char} (hw : Gap w) (hv : Gap v) : Gap (w ++ v) :=
  List.forall_mem_append.2 ⟨hw, hv⟩

/-- The code points of all blanks. -/
def blankCodes : List Nat := [
  9, 10, 11, 12, 13, 28, 29, 30, 31, 32, 0x85, 0xA0, 0x1680, 0x2000, 0x2001,
    0x2002, 0x2003, 0x2004,
  0x2005, 0x2006, 0x2007, 0x2008, 0x2009, 0x200A, 0x2028, 0x2029, 0x202F,
    0x205F, 0x3000]

theorem mem_blankCodes {c : Char} (h : isBlank c = true) :
    c.toNat ∈ blankCodes := by
  simp only [isBlank, Bool.or_eq_true, Bool.and_eq_true, decide_eq_true_eq,
    beq_iff_eq] at h
  simp only [blankCodes, List.mem_cons, List.not_mem_nil, or_false]
  omega

/-- A property of blanks can be checked one blank at a time. -/
theorem forall_blank {p : Char → Prop} (h : ∀ n ∈ blankCodes, p (Char.ofNat n))
    {c : Char} (hc : isBlank c = true) : p c := by
  rw [← Char.ofNat_toNat c]
  exact h _ (mem_blankCodes hc)

theorem isBlank_of_isGap {c : Char} (h : isGap c = true) :
    isBlank c = true := by
  simp only [isGap, Bool.or_eq_true, beq_iff_eq] at h
  rcases h with (((rfl | rfl) | rfl) | rfl) | rfl <;> decide

theorem isGap_of_not_isBlank {c : Char} (h : isBlank c = false) :
    isGap c = false := by
  cases hc : isGap c with
  | false => rfl
  | true => rw [isBlank_of_isGap hc] at h; cases h

theorem isWord_of_isBlank {c : Char} (h : isBlank c = true) :
    isWord c = false := by
  have hall : ∀ n ∈ blankCodes, isWord (Char.ofNat n) = false := by
    decide +kernel
  exact forall_blank (p := fun c => isWord c = false) hall h

/-! ## Skipping gaps -/

theorem skipGap_append {w : List Char} (hw : Gap w) (cs : List Char) :
    skipGap (w ++ cs) = skipGap cs :=
  List.dropWhile_append_of_pos hw

theorem skipGap_cons {c : Char} (h : isGap c = false) (cs : List Char) :
    skipGap (c :: cs) = c :: cs :=
  List.dropWhile_cons_of_neg (by simp [h])

theorem exists_gap (cs : List Char) : ∃ w, Gap w ∧ cs = w ++ skipGap cs := by
  refine ⟨cs.takeWhile isGap, fun c hc => ?_,
    (List.takeWhile_append_dropWhile).symm⟩
  exact (List.mem_takeWhile_imp hc)

/-! ## Trimming -/

theorem trimEnd_append_blank {l w : List Char}
    (hw : ∀ c ∈ w, isBlank c = true) :
    trimEnd (l ++ w) = trimEnd l := by
  rw [trimEnd, List.reverse_append, List.dropWhile_append_of_pos
    (fun c hc => hw c (List.mem_reverse.1 hc)), trimEnd]

theorem trimEnd_append_cons {c : Char} (hc : isBlank c = false)
    (l r : List Char) :
    trimEnd (l ++ c :: r) = l ++ c :: trimEnd r := by
  rw [trimEnd, trimEnd, List.reverse_append, List.reverse_cons,
    List.append_assoc, List.dropWhile_append]
  split
  · next h =>
      rw [List.isEmpty_iff.1 h, List.singleton_append,
        List.dropWhile_cons_of_neg (by simp [hc])]
      simp
  · simp

theorem trimEnd_cons (c : Char) (l : List Char) :
    trimEnd (c :: l) = if (trimEnd l).isEmpty && isBlank c then []
      else c :: trimEnd l := by
  rw [trimEnd, trimEnd, List.reverse_cons, List.dropWhile_append,
    List.isEmpty_reverse]
  cases hl : l.reverse.dropWhile isBlank with
  | nil => cases hc : isBlank c <;> simp [hc]
  | cons d ds => simp

theorem trimEnd_concat {c : Char} (hc : isBlank c = false) (l : List Char) :
    trimEnd (l ++ [c]) = l ++ [c] :=
  trimEnd_append_cons hc l []

theorem trimEnd_of_not_blank {l : List Char} (h : ∀ c ∈ l, isBlank c = false) :
    trimEnd l = l := by
  induction l with
  | nil => rfl
  | cons c rest ih =>
      obtain ⟨hc, hrest⟩ := List.forall_mem_cons.1 h
      rw [trimEnd_cons, ih hrest, hc, Bool.and_false, if_neg Bool.false_ne_true]

/-- What trimming at the end cuts off is blank. -/
theorem exists_trimEnd (l : List Char) :
    ∃ w, (∀ c ∈ w, isBlank c = true) ∧ l = trimEnd l ++ w := by
  refine ⟨(l.reverse.takeWhile isBlank).reverse, fun c hc => ?_, ?_⟩
  · exact List.mem_takeWhile_imp (List.mem_reverse.1 hc)
  · rw [trimEnd, ← List.reverse_append, List.takeWhile_append_dropWhile,
      List.reverse_reverse]

/-- What trimming at the end leaves as it is does not end in a blank. -/
theorem isBlank_of_trimEnd_concat {c : Char} {l : List Char}
    (h : trimEnd (l ++ [c]) = l ++ [c]) :
    isBlank c = false := by
  cases hc : isBlank c with
  | false => rfl
  | true =>
      obtain ⟨w, -, hl⟩ := exists_trimEnd l
      rw [trimEnd_append_blank (List.forall_mem_singleton.2 hc)] at h
      have hlength := congrArg List.length hl
      rw [h, List.length_append, List.length_append,
        List.length_singleton] at hlength
      omega

theorem trim_cons {c : Char} (hc : isBlank c = false) (l : List Char) :
    trim (c :: l) = c :: trimEnd l := by
  rw [trim, trimStart, List.dropWhile_cons_of_neg (by simp [hc])]
  exact trimEnd_append_cons hc [] l

/-- Between two characters that are no blanks nothing is trimmed. -/
theorem trim_of_ends {l : List Char}
    (hfirst : ∃ c rest, l = c :: rest ∧ isBlank c = false)
    (hlast : ∃ front c, l = front ++ [c] ∧ isBlank c = false) : trim l = l := by
  obtain ⟨front, c, hl, hc⟩ := hlast
  have hend : trimEnd l = l := by rw [hl, trimEnd_concat hc]
  obtain ⟨d, rest, rfl, hd⟩ := hfirst
  rw [trim, trimStart, List.dropWhile_cons_of_neg (by simp [hd]), hend]

theorem trimEnd_trimEnd (l : List Char) : trimEnd (trimEnd l) = trimEnd l := by
  obtain ⟨w, hw, hl⟩ := exists_trimEnd l
  have := trimEnd_append_blank (l := trimEnd l) hw
  rw [← hl] at this
  exact this.symm

/-- A trimmed text is empty or starts with a character that is not blank, and
trimming it at the end again changes nothing. -/
theorem trim_eq_nil_or_cons (l : List Char) :
    trim l = [] ∨ ∃ c rest, trim l = c :: rest ∧ isBlank c = false ∧
      trimEnd rest = rest := by
  cases h : trimStart l with
  | nil => exact .inl (by rw [trim, h]; rfl)
  | cons c rest =>
      have hc : isBlank c = false := by
        have := List.head?_dropWhile_not isBlank l
        rw [show l.dropWhile isBlank = c :: rest from h] at this
        simpa using this
      refine .inr ⟨c, trimEnd rest, ?_, hc, trimEnd_trimEnd rest⟩
      rw [trim, h]
      exact trimEnd_append_cons hc [] rest

/-- A trimmed text has no gaps at its ends. -/
theorem trim_eq_of_gaps {l w cs v : List Char} (hw : Gap w) (hv : Gap v)
    (h : trim l = w ++ (cs ++ v)) : trim l = cs := by
  rcases trim_eq_nil_or_cons l with hnil | ⟨c, rest, hl, hc, hrest⟩
  · rw [hnil] at h
    rw [hnil, (List.append_eq_nil_iff.1 (List.append_eq_nil_iff.1 h.symm).2).1]
  · have hwnil : w = [] := by
      cases w with
      | nil => rfl
      | cons d w =>
          rw [hl, List.cons_append] at h
          have hd := isBlank_of_isGap (hw d (List.mem_cons_self ..))
          rw [← (List.cons.inj h).1, hc] at hd
          cases hd
    have hend : trimEnd (cs ++ v) = cs ++ v := by
      rw [hwnil, List.nil_append] at h
      rw [← h, hl]
      exact (trimEnd_append_cons hc [] rest).trans (by rw [hrest]; rfl)
    have hvnil : v = [] := by
      rw [trimEnd_append_blank fun d hd => isBlank_of_isGap (hv d hd)] at hend
      obtain ⟨u, -, hu⟩ := exists_trimEnd cs
      have hlength := congrArg List.length hu
      rw [hend] at hlength
      simp only [List.length_append] at hlength
      exact List.length_eq_zero_iff.1 (by omega)
    rw [h, hwnil, hvnil, List.nil_append, List.append_nil]

theorem trim_append_of_blank {w : List Char} (hw : ∀ c ∈ w, isBlank c = true)
    (l : List Char) :
    trim (w ++ l) = trim l := by
  rw [trim, trimStart, List.dropWhile_append_of_pos hw, trim, trimStart]

theorem trim_trim (l : List Char) : trim (trim l) = trim l := by
  rcases trim_eq_nil_or_cons l with h | ⟨c, rest, h, hc, hrest⟩
  · rw [h]; rfl
  · rw [h, trim_cons hc, hrest]

theorem trimmed_trimmed (s : String) : trimmed (trimmed s) = trimmed s := by
  rw [trimmed, trimmed, String.toList_ofList, trim_trim]

end SheetBinding.Text
