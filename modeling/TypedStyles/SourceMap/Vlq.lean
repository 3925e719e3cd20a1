import TypedStyles.Text.Base64
import TypedStyles.Text.Utf8

/-!
# Variable-length quantities

The mappings of a source map are signed numbers, each written with as few
base-64 digits as it needs.  A number is first made unsigned: its magnitude is
shifted up by one bit and the lowest bit holds the sign.  The result is cut into
groups of five bits, lowest group first, and every group but the last carries a
sixth bit that says more follows.

The numbers are 64-bit words.  The unsigned number is a 64-bit word too, so the
one magnitude of 2^63 loses its top bit and is written as the sign alone.

`encode` writes a number and `decode` reads a segment, which is any count of
numbers in a row.  Reading goes through the bytes of the segment from left to
right and stops at the first one it cannot use.  A number may be padded with
empty groups, as long as it stays within thirteen groups and its last group
within the word.
-/

namespace TypedStyles.Vlq

/-! ## Writing -/

/-- The word that stands for a signed number: the magnitude shifted up by one
bit, and the sign in the lowest bit. -/
def unsigned (v : Int64) : UInt64 :=
  if v < 0 then (-v).toUInt64 <<< 1 ||| 1 else v.toUInt64 <<< 1

/-- The groups of five bits of a word, lowest first.  Every group but the last
has the sixth bit set. -/
def groups (w : UInt64) : List UInt64 :=
  if w >>> 5 = 0 then [w &&& 31] else (w &&& 31 ||| 32) :: groups (w >>> 5)
termination_by w.toNat
decreasing_by
  rename_i more
  have hrest : (w >>> 5).toNat = w.toNat / 32 := by
    simp [Nat.shiftRight_eq_div_pow]
  have hmore : (w >>> 5).toNat ≠ 0 := fun h => more (UInt64.toNat_inj.mp h)
  omega

/-- The digits of a signed number. -/
def encode (v : Int64) : List Char := (groups (unsigned v)).map fun g => Base64.digit g.toNat

/-- The digits of several numbers in a row. -/
def encodeAll (vs : List Int64) : List Char := vs.flatMap encode

/-! ## Reading -/

/-- Why a segment is not a row of numbers. -/
inductive Fault where
  /-- A byte is not one of the sixty-four digits. -/
  | invalidDigit (byte : UInt8)
  /-- A number does not fit in 64 bits. -/
  | tooLarge
  /-- The segment ends while more digits must follow. -/
  | unfinished
deriving DecidableEq

/-- The value of a byte as a digit, if it is one. -/
def digit? (b : UInt8) : Option UInt64 :=
  (Base64.value? (Char.ofNat b.toNat)).map UInt64.ofNat

/-- The signed number that a word stands for. -/
def signed (w : UInt64) : Int64 :=
  if w &&& 1 = 1 then -(w >>> 1).toInt64 else (w >>> 1).toInt64

/-- Five bits do not fit in a word at this shift.  Twelve groups leave four bits
of the word. -/
def Overflows (shift bits : UInt64) : Prop := 60 < shift ∨ shift = 60 ∧ 15 < bits

instance (shift bits : UInt64) : Decidable (Overflows shift bits) :=
  inferInstanceAs (Decidable (60 < shift ∨ shift = 60 ∧ 15 < bits))

/-- Read the rest of a segment.  The groups read of an open number are in `word`,
and the next one goes to `shift`.  The shift is zero where no number is open. -/
def scan : (word shift : UInt64) → List UInt8 → Except Fault (List Int64)
  | _, shift, [] => if shift = 0 then .ok [] else .error .unfinished
  | word, shift, b :: bs =>
      match digit? b with
      | none => .error (.invalidDigit b)
      | some d =>
          if Overflows shift (d &&& 31) then .error .tooLarge
          else if d &&& 32 ≠ 0 then scan (word ||| (d &&& 31) <<< shift) (shift + 5) bs
          else (scan 0 0 bs).map (signed (word ||| (d &&& 31) <<< shift) :: ·)
termination_by structural _ _ bs => bs

/-- The numbers of a segment. -/
def decode (segment : List Char) : Except Fault (List Int64) := scan 0 0 (utf8 segment)

/-! ## Tests -/

example : encode 0 = ['A'] ∧ encode (-1) = ['D'] ∧ encode 16 = ['g', 'B'] := by
  decide +kernel
/-- The smallest word is written as a sign without a magnitude. -/
example : encode Int64.minValue = ['B'] := by decide +kernel
example : decode "w+BhB".toList = .ok [1000, -16] := by rfl
example : decode "g".toList = .error .unfinished := by rfl
/-- The first byte of a character that is no digit is reported. -/
example : decode "Aé".toList = .error (.invalidDigit 0xc3) := by rfl
/-- The thirteenth group has four bits. -/
example : decode "////////////P".toList = .ok [-9223372036854775807] := by rfl
example : decode "////////////Q".toList = .error .tooLarge := by rfl

end TypedStyles.Vlq
