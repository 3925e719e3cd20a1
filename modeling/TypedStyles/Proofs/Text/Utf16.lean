import Mathlib.Data.List.DropRight
import TypedStyles.Proofs.Text.Position

/-!
# Text as UTF-16

`utf16` writes a text as code units.  A walk within a line passes one column for
each code unit (`column_after`).  A walk over several lines ends as many columns
into the last line as that line has code units (`toNat_column_after`).
-/

namespace TypedStyles

/-- The code units of a character.  Outside the basic plane they are a surrogate pair. -/
def utf16Units (c : Char) : List UInt16 :=
  if c.toNat < 0x10000 then [UInt16.ofNat c.toNat]
  else
    let n := c.toNat - 0x10000
    [UInt16.ofNat (0xD800 + n / 0x400), UInt16.ofNat (0xDC00 + n % 0x400)]

/-- The code units of a text. -/
def utf16 (text : List Char) : List UInt16 := text.flatMap utf16Units

theorem utf16_cons (c : Char) (text : List Char) : utf16 (c :: text) = utf16Units c ++ utf16 text :=
  rfl

theorem utf16_append (s t : List Char) : utf16 (s ++ t) = utf16 s ++ utf16 t :=
  List.flatMap_append

theorem ofNat_length_utf16Units (c : Char) :
    UInt32.ofNat (utf16Units c).length = Position.units c := by
  have hval : c.val ≤ 0xFFFF ↔ c.toNat < 0x10000 := by
    rw [UInt32.le_iff_toNat_le]
    exact Nat.lt_succ_iff.symm
  rw [Position.units, utf16Units]
  by_cases h : c.toNat < 0x10000
  · rw [if_pos h, if_pos (hval.mpr h)]
    rfl
  · rw [if_neg h, if_neg (fun hle => h (hval.mp hle))]
    rfl

/-- Within a line, a walk passes one column for each code unit. -/
theorem column_after {p : Position} {text : List Char} (h : '\n' ∉ text) :
    (p.after text).column = p.column + UInt32.ofNat (utf16 text).length := by
  induction text generalizing p with
  | nil => exact (UInt32.add_zero _).symm
  | cons c text ih =>
      have hc : c ≠ '\n' := fun e => h (e ▸ List.mem_cons_self)
      have hcolumn : (p.advance c).column = p.column + Position.units c := by
        rw [Position.advance, if_neg hc]
      rw [Position.after_cons, ih fun ht => h (List.mem_cons_of_mem c ht), hcolumn,
        ← ofNat_length_utf16Units, utf16_cons, List.length_append, UInt32.ofNat_add,
        UInt32.add_assoc]

/-! ## The last line -/

/-- What stands behind the last line feed of a text. -/
def lastLine (text : List Char) : List Char := text.rtakeWhile (· != '\n')

theorem lineFeed_not_mem_lastLine (text : List Char) : '\n' ∉ lastLine text := by
  intro h
  simpa using List.mem_rtakeWhile_imp h

/-- A text is its last line behind lines that are ended. -/
theorem exists_ended_append_lastLine (text : List Char) :
    ∃ before, Ended before ∧ before ++ lastLine text = text := by
  refine ⟨text.rdropWhile (· != '\n'), ?_, List.rdropWhile_append_rtakeWhile⟩
  by_cases h : text.rdropWhile (· != '\n') = []
  · exact Or.inl h
  · have hlast := List.rdropWhile_last_not _ _ h
    right
    rw [List.getLast?_eq_some_getLast h]
    simpa using hlast

theorem length_utf16_lastLine_le (text : List Char) :
    (utf16 (lastLine text)).length ≤ (utf16 text).length := by
  obtain ⟨before, -, htext⟩ := exists_ended_append_lastLine text
  have hlength := congrArg (fun t => (utf16 t).length) htext
  simp only [utf16_append, List.length_append] at hlength
  omega

/-- A walk from the beginning of a line ends as many columns into the last line as that line has
code units, if the columns can be counted. -/
theorem toNat_column_after {p : Position} {text : List Char} (hp : p.column = 0)
    (h : (utf16 text).length < 0x100000000) :
    (p.after text).column.toNat = (utf16 (lastLine text)).length := by
  obtain ⟨before, hbefore, htext⟩ := exists_ended_append_lastLine text
  have hle := length_utf16_lastLine_le text
  have hwalk : p.after text = (p.after before).after (lastLine text) := by
    rw [← Position.after_append, htext]
  rw [hwalk, column_after (lineFeed_not_mem_lastLine text), hbefore.column_after hp,
    UInt32.zero_add]
  exact UInt32.toNat_ofNat_of_lt' (Nat.lt_of_le_of_lt hle h)

example : utf16 ['a', '😀'] = [0x61, 0xD83D, 0xDE00] := by decide

end TypedStyles
