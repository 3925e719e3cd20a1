/-!
# Text as bytes

`utf8` writes a text as bytes and `ofUtf8?` reads bytes as a text.  Not all
bytes are a text.  `ofUtf8?_utf8` says that the bytes of a text read back.

`ofUtf8Lossy` reads any bytes.  It reads them one by one and keeps what is known
of a character whose last bytes are missing.  A byte that cannot continue the
character ends it: a replacement character stands for the bytes so far, and the
byte is read anew.
-/

namespace TypedStyles

/-- The bytes of a text in UTF-8. -/
def utf8 (text : List Char) : List UInt8 := text.flatMap String.utf8EncodeChar

/-- The text that some bytes are in UTF-8, if they are one. -/
def ofUtf8? (bytes : List UInt8) : Option (List Char) :=
  bytes.toByteArray.utf8Decode?.map Array.toList

/-- The bytes of a text read back. -/
theorem ofUtf8?_utf8 (text : List Char) : ofUtf8? (utf8 text) = some text := by
  have h : (utf8 text).toByteArray = text.utf8Encode := rfl
  rw [ofUtf8?, h, List.utf8Decode?_utf8Encode]
  rfl

example : utf8 ['é'] = [0xc3, 0xa9] := by decide

/-! ## Reading any bytes -/

/-- What is read in the place of bytes that are no character. -/
def replacementChar : Char := '\ufffd'

/-- A character whose last bytes are missing.  Every byte behind the first holds
six bits. -/
structure PartialChar where
  /-- The bits of the bytes so far, as a number. -/
  bits : Nat
  /-- How many bytes are missing. -/
  missing : Nat
  /-- The least number that the next six bits can be. -/
  least : Nat
  /-- The greatest number that the next six bits can be. -/
  most : Nat
deriving DecidableEq

namespace PartialChar

/-- The character that begins with a byte, if it has more than one.  The bounds
leave out what could be written with fewer bytes, surrogates, and numbers that
are too large. -/
def ofFirst? (b : UInt8) : Option PartialChar :=
  let n := b.toNat
  if n < 0xc2 then none
  else if n < 0xe0 then some ⟨n - 0xc0, 1, 0, 0x3f⟩
  else if n < 0xf0 then
    some ⟨n - 0xe0, 2, if n = 0xe0 then 0x20 else 0, if n = 0xed then 0x1f else 0x3f⟩
  else if n < 0xf5 then
    some ⟨n - 0xf0, 3, if n = 0xf0 then 0x10 else 0, if n = 0xf4 then 0x0f else 0x3f⟩
  else none

end PartialChar

/-- What reading a byte gives: the characters that are complete, and the one
that is not. -/
abbrev ByteStep : Type := List Char × Option PartialChar

/-- Read a byte between characters. -/
def readFirstByte (b : UInt8) : ByteStep :=
  if b.toNat < 0x80 then ([Char.ofNat b.toNat], none)
  else
    match PartialChar.ofFirst? b with
    | some p => ([], some p)
    | none => ([replacementChar], none)

/-- Read a byte within a character. -/
def PartialChar.readNextByte (p : PartialChar) (b : UInt8) : ByteStep :=
  if 0x80 + p.least ≤ b.toNat ∧ b.toNat ≤ 0x80 + p.most then
    let bits := 0x40 * p.bits + (b.toNat - 0x80)
    if p.missing = 1 then ([Char.ofNat bits], none)
    else ([], some ⟨bits, p.missing - 1, 0, 0x3f⟩)
  else
    let (cs, next) := readFirstByte b
    (replacementChar :: cs, next)

/-- Read bytes behind a character whose last bytes are missing, if there is one. -/
def ofUtf8LossyFrom : Option PartialChar → List UInt8 → List Char
  | none, [] => []
  | some _, [] => [replacementChar]
  | none, b :: bs =>
      let (cs, next) := readFirstByte b
      cs ++ ofUtf8LossyFrom next bs
  | some p, b :: bs =>
      let (cs, next) := p.readNextByte b
      cs ++ ofUtf8LossyFrom next bs
termination_by structural _ bytes => bytes

/-- The text of some bytes, where a replacement character stands for every run
of bytes that is no character. -/
def ofUtf8Lossy (bytes : List UInt8) : List Char := ofUtf8LossyFrom none bytes

/-- A character that is cut off is replaced once, and the byte behind it is
read. -/
example : ofUtf8Lossy [0x61, 0xf0, 0x90, 0x80, 0x62] = ['a', '\ufffd', 'b'] := by decide
/-- A surrogate is no character, and neither are the bytes behind its first. -/
example : ofUtf8Lossy [0xed, 0xa0, 0x80] = ['\ufffd', '\ufffd', '\ufffd'] := by decide

end TypedStyles
