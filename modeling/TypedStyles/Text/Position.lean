/-!
# Positions in a text

A position is a line, counted from one, and a column, counted from zero.  A
column is counted in UTF-16 code units, as source maps count it.  So a
character outside the basic plane takes two columns.

Positions are ordered line first.  `advance` moves a position over one
character and `after` over a text.  `lineCount` counts the lines of a text.
All these numbers are 32-bit words.  A text of 2^32 lines, or a line of 2^32
units, would make them start over at zero.

`after_append` says that a text may be walked in pieces.
-/

namespace TypedStyles

/-- A place in a text. -/
structure Position where
  /-- The line, counted from one. -/
  line : UInt32
  /-- The column, counted from zero in UTF-16 code units. -/
  column : UInt32
deriving DecidableEq

namespace Position

/-- The position before the first character of a text. -/
def start : Position := ⟨1, 0⟩

/-! ## Order -/

/-- `p` comes before `q`, or they are the same.  The line decides, and on one
line the column. -/
def Before (p q : Position) : Prop :=
  p.line < q.line ∨ p.line = q.line ∧ p.column ≤ q.column

instance : LE Position := ⟨Before⟩

instance (p q : Position) : Decidable (p ≤ q) :=
  inferInstanceAs (Decidable (p.line < q.line ∨ p.line = q.line ∧ p.column ≤ q.column))

/-- The order, spelled out. -/
theorem le_iff (p q : Position) :
    p ≤ q ↔ p.line < q.line ∨ p.line = q.line ∧ p.column ≤ q.column := Iff.rfl

/-! ## Walking over text -/

/-- The number of UTF-16 code units a character takes. -/
def units (c : Char) : UInt32 := if c.val ≤ 0xFFFF then 1 else 2

/-- The position after one character.  A line feed opens the next line. -/
def advance (p : Position) (c : Char) : Position :=
  if c = '\n' then ⟨p.line + 1, 0⟩ else ⟨p.line, p.column + units c⟩

/-- The position after a text that begins at `p`. -/
def after (p : Position) (text : List Char) : Position := text.foldl advance p

theorem after_nil (p : Position) : p.after [] = p := rfl

theorem after_cons (p : Position) (c : Char) (text : List Char) :
    p.after (c :: text) = (p.advance c).after text := rfl

/-- Walking over two texts in turn is walking over their concatenation. -/
theorem after_append (p : Position) (s t : List Char) :
    p.after (s ++ t) = (p.after s).after t := List.foldl_append

end Position

/-- The number of lines of a text.  A line feed at the end opens one more line,
which is empty. -/
def lineCount (text : List Char) : UInt32 := UInt32.ofNat (text.splitOn '\n').length

/-! ## Tests -/

section Tests

open Position

example : start.after ['a', '\n', 'b', 'c'] = ⟨2, 2⟩ := by decide
/-- A character outside the basic plane takes two columns. -/
example : start.after ['a', '😀', 'b'] = ⟨1, 4⟩ := by decide
example : (⟨2, 9⟩ : Position) ≤ ⟨3, 0⟩ ∧ ¬ (⟨3, 1⟩ : Position) ≤ ⟨3, 0⟩ := by decide

example : lineCount ['a', '\n'] = 2 := by decide
example : lineCount [] = 1 := by decide

end Tests

end TypedStyles
