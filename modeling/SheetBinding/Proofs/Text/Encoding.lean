import SheetBinding.Text.Encoding

/-!
# Encoding and decoding

Each encoding reads a character off the bytes that it wrote for it, whatever
bytes come behind them (`decodeChar?_encodeChar?`). So decoding takes a text
apart at the places where encoding put it together, and what an encoding could
write down at all comes back (`decode?_of_encode?`).

A byte of UTF-8 carries six, five, four or three bits of a character, and the
number of bits is told by the range that the first byte lies in. What has to be
seen is that the bits put together are the number of the character, and that
this number is too great for a shorter form.
-/

namespace SheetBinding.Text.Encoding

variable {n least : Nat} {c : Char}

theorem toNat_byte (h : n < 256) : (byte n).toNat = n := by
  rw [byte, UInt8.toNat_ofNat']
  exact Nat.mod_eq_of_lt h

theorem toNat_lt (c : Char) :
    c.toNat < 0xD800 ∨ (0xDFFF < c.toNat ∧ c.toNat < 0x110000) :=
  c.valid

theorem charFrom?_toNat (h : least ≤ c.toNat) :
    charFrom? least c.toNat = some c := by
  have hvalid : c.toNat.isValidChar := c.valid
  rw [charFrom?, if_pos (by simp [h, hvalid]), Char.ofNat_toNat]

theorem continuation?_byte (h : n < 64) :
    continuation? (byte (0x80 + n)) = some n := by
  rw [continuation?, toNat_byte (by omega), if_pos (by simp; omega),
    Nat.add_sub_cancel_left]

/-! ## UTF-8 -/

theorem utf8Char?_utf8Bytes (c : Char) (rest : List Byte) :
    utf8Char? (utf8Bytes c ++ rest) = some (c, rest) := by
  have hc := toNat_lt c
  rw [utf8Bytes]
  split
  · next h₁ =>
      simp only [List.cons_append, List.nil_append, utf8Char?,
        toNat_byte (by omega : c.toNat < 256), if_pos h₁, Char.ofNat_toNat]
  · next h₁ =>
      split
      · next h₂ =>
          have hfirst := toNat_byte (by omega : 0xC0 + c.toNat / 64 < 256)
          have hnumber : (0xC0 + c.toNat / 64 - 0xC0) * 64 + c.toNat % 64 =
              c.toNat := by
            omega
          simp only [List.cons_append, List.nil_append, utf8Char?, hfirst]
          rw [if_neg (by omega), if_pos (by simp; omega),
            continuation?_byte (by omega)]
          simp only [Option.bind_eq_bind, Option.bind_some]
          rw [hnumber, charFrom?_toNat (by omega)]
          rfl
      · next h₂ =>
          split
          · next h₃ =>
              have hfirst := toNat_byte (by omega : 0xE0 + c.toNat / 4096 < 256)
              have hnumber : ((0xE0 + c.toNat / 4096 - 0xE0) * 64 +
                  c.toNat / 64 % 64) * 64 + c.toNat % 64 = c.toNat := by
                omega
              simp only [List.cons_append, List.nil_append, utf8Char?, hfirst]
              rw [if_neg (by omega), if_neg (by simp), if_pos (by simp; omega),
                continuation?_byte (by omega), continuation?_byte (by omega)]
              simp only [Option.bind_eq_bind, Option.bind_some]
              rw [hnumber, charFrom?_toNat (by omega)]
              rfl
          · next h₃ =>
              have hfirst :=
                toNat_byte (by omega : 0xF0 + c.toNat / 262144 < 256)
              have hnumber : (((0xF0 + c.toNat / 262144 - 0xF0) * 64 + c.toNat
                  / 4096 % 64) * 64 + c.toNat / 64 % 64) * 64 + c.toNat % 64 =
                  c.toNat := by
                omega
              simp only [List.cons_append, List.nil_append, utf8Char?, hfirst]
              rw [if_neg (by omega), if_neg (by simp; omega), if_neg (by simp),
                if_pos (by simp; omega), continuation?_byte (by omega),
                continuation?_byte (by omega), continuation?_byte (by omega)]
              simp only [Option.bind_eq_bind, Option.bind_some]
              rw [hnumber, charFrom?_toNat (by omega)]
              rfl

/-! ## 16-bit units -/

theorem unit?_unitBytes (h : n < 0x10000) (rest : List Byte) :
    unit? (unitBytes n ++ rest) = some (n, rest) := by
  rw [unitBytes, List.cons_append, List.cons_append, List.nil_append, unit?,
    toNat_byte (by omega), toNat_byte (by omega), Nat.mod_add_div]

theorem utf16Char?_utf16Bytes (c : Char) (rest : List Byte) :
    utf16Char? (utf16Bytes c ++ rest) = some (c, rest) := by
  have hc := toNat_lt c
  rw [utf16Bytes]
  split
  · next h =>
      rw [utf16Char?, unit?_unitBytes h]
      dsimp only
      rw [if_neg (by simp; omega), charFrom?_toNat (Nat.zero_le _)]
      rfl
  · next h =>
      have hnumber : 0x10000 + (0xD800 + (c.toNat - 0x10000) / 1024 - 0xD800) *
          1024 + (0xDC00 + (c.toNat - 0x10000) % 1024 - 0xDC00) = c.toNat := by
        omega
      rw [List.append_assoc, utf16Char?, unit?_unitBytes (by omega)]
      dsimp only
      rw [if_pos (by simp; omega), unit?_unitBytes (by omega)]
      dsimp only
      rw [if_pos (by simp; omega), hnumber, Char.ofNat_toNat]

/-! ## All encodings -/

theorem decodeChar?_encodeChar? {e : Encoding} {bytes : List Byte}
    (h : e.encodeChar? c = some bytes) (rest : List Byte) :
    e.decodeChar? (bytes ++ rest) = some (c, rest) := by
  cases e with
  | utf8 | utf8Marked =>
      cases h
      exact utf8Char?_utf8Bytes c rest
  | utf16 =>
      cases h
      exact utf16Char?_utf16Bytes c rest
  | latin1 =>
      rw [encodeChar?, Option.ite_none_right_eq_some] at h
      obtain ⟨hc, h⟩ := h
      cases h
      rw [List.singleton_append, decodeChar?]
      simp only [toNat_byte hc, Char.ofNat_toNat]
  | ascii =>
      rw [encodeChar?, Option.ite_none_right_eq_some] at h
      obtain ⟨hc, h⟩ := h
      cases h
      rw [List.singleton_append, decodeChar?]
      simp only [toNat_byte (by omega : c.toNat < 256), if_pos hc,
        Char.ofNat_toNat]

theorem ne_nil_of_encodeChar? {e : Encoding} {bytes : List Byte}
    (h : e.encodeChar? c = some bytes) : bytes ≠ [] := by
  rintro rfl
  have hread := decodeChar?_encodeChar? h []
  cases e <;> cases hread

/-- Decoding takes no more rounds than there are bytes. -/
theorem decodeWithin_of_encodeChars? {e : Encoding} {cs : List Char}
    {bytes : List Byte} (h : e.encodeChars? cs = some bytes) {rounds : Nat}
    (hrounds : bytes.length ≤ rounds) :
    e.decodeWithin rounds bytes = some cs := by
  induction cs generalizing bytes rounds with
  | nil =>
      cases h
      rw [decodeWithin]
  | cons c rest ih =>
      obtain ⟨front, hfront, h⟩ := Option.bind_eq_some_iff.1 h
      obtain ⟨back, hback, h⟩ := Option.bind_eq_some_iff.1 h
      cases h
      have hread := decodeChar?_encodeChar? hfront back
      cases front with
      | nil => exact absurd rfl (ne_nil_of_encodeChar? hfront)
      | cons b more =>
          rw [List.length_append, List.length_cons] at hrounds
          obtain ⟨fewer, rfl⟩ : ∃ fewer, rounds = fewer + 1 :=
            ⟨rounds - 1, by omega⟩
          rw [List.cons_append] at hread ⊢
          rw [decodeWithin, hread]
          dsimp only
          rw [ih hback (by omega)]
          rfl

/-- What could be encoded comes back when it is decoded, with or without a byte
order mark. -/
theorem decode?_of_encode? {e : Encoding} {s : String} {bytes : List Byte}
    (h : e.encode? s = some bytes) : e.decode? bytes = some s := by
  obtain ⟨plain, hplain, rfl⟩ := Option.map_eq_some_iff.1 h
  have hunmarked : e.withoutMark (if e == utf8Marked then mark ++ plain
      else plain) = plain := by
    rw [withoutMark]
    cases hmarked : e == utf8Marked with
    | false => simp
    | true => simp
  rw [decode?, hunmarked]
  rw [decodeWithin_of_encodeChars? hplain (Nat.le_refl _), Option.map_some,
    String.ofList_toList]

end SheetBinding.Text.Encoding
