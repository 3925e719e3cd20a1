import Mathlib.Data.List.Basic
import TypedStyles.Text.Utf8

/-!
# Reading bytes with replacement characters

The bytes of a character are read as this character, whatever follows them
(`ofUtf8LossyFrom_utf8EncodeChar`).  So nothing is replaced where the bytes are a
text (`ofUtf8Lossy_utf8`).  A character of one byte ends what stands before it, so
bytes can be cut there (`ofUtf8Lossy_append_cons`).
-/

namespace TypedStyles

theorem toNat_ofNat_byte {n : Nat} (h : n < 0x100) : (UInt8.ofNat n).toNat = n := by
  rw [UInt8.toNat_ofNat']
  exact Nat.mod_eq_of_lt h

/-! ## The first byte of a character -/

namespace PartialChar

variable {n : Nat}

theorem ofFirst?_of_two (h : 2 ≤ n) (hn : n < 0x20) :
    ofFirst? (UInt8.ofNat (n + 0xc0)) = some ⟨n, 1, 0, 0x3f⟩ := by
  rw [ofFirst?, toNat_ofNat_byte (by omega)]
  simp only [if_neg (show ¬ n + 0xc0 < 0xc2 by omega), if_pos (show n + 0xc0 < 0xe0 by omega),
    Nat.add_sub_cancel]

theorem ofFirst?_of_three (hn : n < 0x10) :
    ofFirst? (UInt8.ofNat (n + 0xe0))
      = some ⟨n, 2, if n = 0 then 0x20 else 0, if n = 0xd then 0x1f else 0x3f⟩ := by
  rw [ofFirst?, toNat_ofNat_byte (by omega)]
  simp only [if_neg (show ¬ n + 0xe0 < 0xc2 by omega), if_neg (show ¬ n + 0xe0 < 0xe0 by omega),
    if_pos (show n + 0xe0 < 0xf0 by omega), Nat.add_sub_cancel, Nat.add_eq_right,
    show (n + 0xe0 = 0xed) = (n = 0xd) by simp]

theorem ofFirst?_of_four (hn : n < 5) :
    ofFirst? (UInt8.ofNat (n + 0xf0))
      = some ⟨n, 3, if n = 0 then 0x10 else 0, if n = 4 then 0x0f else 0x3f⟩ := by
  rw [ofFirst?, toNat_ofNat_byte (by omega)]
  simp only [if_neg (show ¬ n + 0xf0 < 0xc2 by omega), if_neg (show ¬ n + 0xf0 < 0xe0 by omega),
    if_neg (show ¬ n + 0xf0 < 0xf0 by omega), if_pos (show n + 0xf0 < 0xf5 by omega),
    Nat.add_sub_cancel, Nat.add_eq_right, show (n + 0xf0 = 0xf4) = (n = 4) by simp]

end PartialChar

section Bytes

variable (bytes : List UInt8)

theorem ofUtf8LossyFrom_first {b : UInt8} {p : PartialChar} (hb : 0x80 ≤ b.toNat)
    (h : PartialChar.ofFirst? b = some p) :
    ofUtf8LossyFrom none (b :: bytes) = ofUtf8LossyFrom (some p) bytes := by
  simp only [ofUtf8LossyFrom, readFirstByte, if_neg (Nat.not_lt.mpr hb), h]
  rfl

/-! ## The bytes behind it -/

variable {bits least most n : Nat} (hleast : least ≤ n) (hmost : n ≤ most) (hn : n < 0x40)
include hleast hmost hn

theorem ofUtf8LossyFrom_next (missing : Nat) :
    ofUtf8LossyFrom (some ⟨bits, missing + 2, least, most⟩) (UInt8.ofNat (n + 0x80) :: bytes)
      = ofUtf8LossyFrom (some ⟨0x40 * bits + n, missing + 1, 0, 0x3f⟩) bytes := by
  have hbyte := toNat_ofNat_byte (n := n + 0x80) (by omega)
  have hrange : 0x80 + least ≤ n + 0x80 ∧ n + 0x80 ≤ 0x80 + most := by omega
  have hnext : PartialChar.readNextByte ⟨bits, missing + 2, least, most⟩ (UInt8.ofNat (n + 0x80))
      = ([], some ⟨0x40 * bits + n, missing + 1, 0, 0x3f⟩) := by
    rw [PartialChar.readNextByte, hbyte, if_pos hrange, Nat.add_sub_cancel]
    exact if_neg (show ¬ missing + 2 = 1 by omega)
  rw [ofUtf8LossyFrom, hnext]
  rfl

theorem ofUtf8LossyFrom_last {c : Char} (hc : 0x40 * bits + n = c.toNat) :
    ofUtf8LossyFrom (some ⟨bits, 1, least, most⟩) (UInt8.ofNat (n + 0x80) :: bytes)
      = c :: ofUtf8LossyFrom none bytes := by
  have hbyte := toNat_ofNat_byte (n := n + 0x80) (by omega)
  have hrange : 0x80 + least ≤ n + 0x80 ∧ n + 0x80 ≤ 0x80 + most := by omega
  have hnext : PartialChar.readNextByte ⟨bits, 1, least, most⟩ (UInt8.ofNat (n + 0x80))
      = ([c], none) := by
    rw [PartialChar.readNextByte, hbyte, if_pos hrange, Nat.add_sub_cancel]
    exact (if_pos rfl).trans (by rw [hc, Char.ofNat_toNat])
  rw [ofUtf8LossyFrom, hnext]
  rfl

end Bytes

/-! ## Characters -/

/-- The bytes of a character are read as the character. -/
theorem ofUtf8LossyFrom_utf8EncodeChar (c : Char) (bytes : List UInt8) :
    ofUtf8LossyFrom none (String.utf8EncodeChar c ++ bytes) = c :: ofUtf8LossyFrom none bytes := by
  have hvalid : c.toNat < 0xd800 ∨ 0xdfff < c.toNat ∧ c.toNat < 0x110000 := c.valid
  have hval : c.val.toNat = c.toNat := rfl
  -- The six bits of the last byte, and those of the bytes before it.
  have hlow : c.toNat % 0x40 ≤ 0x3f := by omega
  have hmiddle : c.toNat / 64 % 0x40 ≤ 0x3f := by omega
  simp only [String.utf8EncodeChar, hval]
  split_ifs with hone htwo hthree
  · rw [List.singleton_append, ofUtf8LossyFrom, readFirstByte, toNat_ofNat_byte (by omega),
      if_pos (by omega), Char.ofNat_toNat]
    rfl
  · have hfirst := PartialChar.ofFirst?_of_two (n := c.toNat / 64 % 0x20) (by omega) (by omega)
    have hbyte : 0x80 ≤ (UInt8.ofNat (c.toNat / 64 % 0x20 + 0xc0)).toNat := by
      rw [toNat_ofNat_byte] <;> omega
    rw [List.cons_append, List.singleton_append, ofUtf8LossyFrom_first _ hbyte hfirst]
    exact ofUtf8LossyFrom_last _ (Nat.zero_le _) hlow (by omega) (by omega)
  · have hfirst := PartialChar.ofFirst?_of_three (n := c.toNat / 4096 % 0x10) (by omega)
    have hbyte : 0x80 ≤ (UInt8.ofNat (c.toNat / 4096 % 0x10 + 0xe0)).toNat := by
      rw [toNat_ofNat_byte] <;> omega
    rw [List.cons_append, List.cons_append, List.singleton_append,
      ofUtf8LossyFrom_first _ hbyte hfirst, ofUtf8LossyFrom_next _ _ _ (by omega) 0]
    · exact ofUtf8LossyFrom_last _ (Nat.zero_le _) hlow (by omega) (by omega)
    · split_ifs <;> omega
    · split_ifs <;> omega
  · have hfirst := PartialChar.ofFirst?_of_four (n := c.toNat / 262144 % 8) (by omega)
    have hbyte : 0x80 ≤ (UInt8.ofNat (c.toNat / 262144 % 8 + 0xf0)).toNat := by
      rw [toNat_ofNat_byte] <;> omega
    rw [List.cons_append, List.cons_append, List.cons_append, List.singleton_append,
      ofUtf8LossyFrom_first _ hbyte hfirst, ofUtf8LossyFrom_next _ _ _ (by omega) 1,
      ofUtf8LossyFrom_next _ (Nat.zero_le _) hmiddle (by omega) 0]
    · exact ofUtf8LossyFrom_last _ (Nat.zero_le _) hlow (by omega) (by omega)
    · split_ifs <;> omega
    · split_ifs <;> omega

/-! ## Texts -/

/-- **A text is read as it is.**  Nothing is replaced in the bytes of a text. -/
theorem ofUtf8Lossy_utf8 (text : List Char) : ofUtf8Lossy (utf8 text) = text := by
  induction text with
  | nil => rfl
  | cons c text ih =>
      rw [utf8, List.flatMap_cons, ofUtf8Lossy, ofUtf8LossyFrom_utf8EncodeChar]
      exact congrArg (c :: ·) ih

theorem ofUtf8?_eq_some_iff {bytes : List UInt8} {text : List Char} :
    ofUtf8? bytes = some text ↔ bytes = utf8 text := by
  constructor
  · intro h
    obtain ⟨chars, hchars, rfl⟩ := Option.map_eq_some_iff.mp h
    have hsome : bytes.toByteArray.utf8Decode?.isSome := by
      rw [hchars]
      rfl
    have hget := ByteArray.utf8Encode_get_utf8Decode? (h := hsome)
    rw [show bytes.toByteArray.utf8Decode?.get hsome = chars by simp [hchars]] at hget
    have hbytes : (utf8 chars.toList).toByteArray = bytes.toByteArray := hget
    exact (List.toByteArray_inj.mp hbytes).symm
  · rintro rfl
    exact ofUtf8?_utf8 text

theorem utf8_append (text text' : List Char) : utf8 (text ++ text') = utf8 text ++ utf8 text' :=
  List.flatMap_append

/-! ## Characters of one byte -/

theorem toNat_toUInt8 {c : Char} (hc : c.toNat < 0x80) : c.toUInt8.toNat = c.toNat := by
  have hval : c.val.toNat = c.toNat := rfl
  rw [Char.toUInt8, UInt32.toNat_toUInt8, hval]
  exact Nat.mod_eq_of_lt (by omega)

/-- A character with a number below 128 is written as a byte that stands in no other character. -/
theorem toUInt8_mem_utf8EncodeChar_iff {c d : Char} (hc : c.toNat < 0x80) :
    c.toUInt8 ∈ String.utf8EncodeChar d ↔ c = d := by
  have hval : d.val.toNat = d.toNat := rfl
  have hne : ∀ n, 0x80 ≤ n → n < 0x100 → c.toUInt8 ≠ UInt8.ofNat n := by
    intro n hle hlt h
    have hbyte := toNat_toUInt8 hc
    rw [h, toNat_ofNat_byte hlt] at hbyte
    omega
  by_cases hone : d.toNat ≤ 0x7f
  · simp only [String.utf8EncodeChar, hval, if_pos hone, List.mem_singleton]
    rw [← UInt8.toNat_inj, toNat_toUInt8 hc, toNat_ofNat_byte (by omega), Char.toNat_inj]
  · have hcd : c ≠ d := by
      rintro rfl
      omega
    simp only [String.utf8EncodeChar, hval, if_neg hone, hcd, iff_false]
    split_ifs <;> simp only [List.mem_cons, List.not_mem_nil, or_false, not_or]
    · exact ⟨hne _ (by omega) (by omega), hne _ (by omega) (by omega)⟩
    · exact ⟨hne _ (by omega) (by omega), hne _ (by omega) (by omega), hne _ (by omega) (by omega)⟩
    · exact ⟨hne _ (by omega) (by omega), hne _ (by omega) (by omega), hne _ (by omega) (by omega),
        hne _ (by omega) (by omega)⟩

theorem toUInt8_mem_utf8_iff {c : Char} (hc : c.toNat < 0x80) {text : List Char} :
    c.toUInt8 ∈ utf8 text ↔ c ∈ text := by
  rw [utf8, List.mem_flatMap]
  simp only [toUInt8_mem_utf8EncodeChar_iff hc, exists_eq_right']

/-- The byte of a character cannot continue another one. -/
theorem PartialChar.readNextByte_toUInt8 (p : PartialChar) {c : Char} (hc : c.toNat < 0x80) :
    p.readNextByte c.toUInt8 = ([replacementChar, c], none) := by
  rw [readNextByte, toNat_toUInt8 hc, if_neg (by omega), readFirstByte, toNat_toUInt8 hc, if_pos hc,
    Char.ofNat_toNat]

/-- Bytes can be read apart on both sides of a character of one byte. -/
theorem ofUtf8LossyFrom_append_cons (state : Option PartialChar) (before : List UInt8) {c : Char}
    (hc : c.toNat < 0x80) (after : List UInt8) :
    ofUtf8LossyFrom state (before ++ c.toUInt8 :: after)
      = ofUtf8LossyFrom state before ++ c :: ofUtf8Lossy after := by
  induction before generalizing state with
  | nil =>
      cases state with
      | none =>
          simp only [List.nil_append, ofUtf8LossyFrom, readFirstByte, toNat_toUInt8 hc, if_pos hc,
            Char.ofNat_toNat]
          rfl
      | some p =>
          simp only [List.nil_append, ofUtf8LossyFrom, p.readNextByte_toUInt8 hc]
          rfl
  | cons a before ih =>
      cases state with
      | none => simp only [List.cons_append, ofUtf8LossyFrom, ih, List.append_assoc]
      | some p => simp only [List.cons_append, ofUtf8LossyFrom, ih, List.append_assoc]

theorem ofUtf8Lossy_append_cons (before : List UInt8) {c : Char} (hc : c.toNat < 0x80)
    (after : List UInt8) :
    ofUtf8Lossy (before ++ c.toUInt8 :: after)
      = ofUtf8Lossy before ++ c :: ofUtf8Lossy after :=
  ofUtf8LossyFrom_append_cons none before hc after

end TypedStyles
