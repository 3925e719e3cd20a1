import TypedStyles.Json.Literal

/-!
# String literals

`StringLiteral inside text` says that a text, written between two quotes, is a
JSON string that stands for another text.  It is stated piece by piece, with
one piece for each character (`CharLiteral`).  A character stands for itself, or it
is escaped by a letter or by its code units.

`StringState.close?` reads a string up to its closing quote and gives its text
and what stands behind it.  The characters that were read so far are all that a
string between two characters remembers (`StringState.after`).  Every string
literal is read as the text that it stands for, whatever follows it
(`StringLiteral.close?`).
-/

namespace TypedStyles.Json

/-! ## The grammar of string literals -/

/-- The letters that may follow a backslash, each with the character that it stands for. -/
def escapeLetters : List (Char × Char) :=
  [('"', '"'), ('\\', '\\'), ('/', '/'), ('b', '\x08'), ('f', '\x0c'), ('n', '\n'), ('r', '\r'),
    ('t', '\t')]

/-- An escape by four hexadecimal digits and the code unit that they spell. -/
inductive UnitEscape : List Char → Nat → Prop
  | digits {a b c d : Char} {i j k l : Nat} (ha : hexValue? a = some i) (hb : hexValue? b = some j)
      (hc : hexValue? c = some k) (hd : hexValue? d = some l) :
      UnitEscape ['\\', 'u', a, b, c, d] (((i * 16 + j) * 16 + k) * 16 + l)

/-- A piece of a string literal and the character that it stands for. -/
inductive CharLiteral : List Char → Char → Prop
  | plain {c : Char} (hquote : c ≠ '"') (hbackslash : c ≠ '\\') (hcontrol : 0x20 ≤ c.toNat) :
      CharLiteral [c] c
  | letter {letter c : Char} (h : (letter, c) ∈ escapeLetters) : CharLiteral ['\\', letter] c
  | unit {piece : List Char} {unit : Nat} (h : UnitEscape piece unit)
      (hscalar : unit < 0xD800 ∨ 0xE000 ≤ unit) : CharLiteral piece (Char.ofNat unit)
  | pair {first second : List Char} {high low : Nat} (h : UnitEscape first high)
      (hhigh : 0xD800 ≤ high ∧ high < 0xDC00) (h' : UnitEscape second low)
      (hlow : 0xDC00 ≤ low ∧ low < 0xE000) :
      CharLiteral (first ++ second)
        (Char.ofNat (0x10000 + (high - 0xD800) * 0x400 + (low - 0xDC00)))

/-- What stands between the quotes of a string literal, and the text that it stands for. -/
inductive StringLiteral : List Char → List Char → Prop
  | nil : StringLiteral [] []
  | cons {piece inside text : List Char} {c : Char} (hpiece : CharLiteral piece c)
      (hinside : StringLiteral inside text) : StringLiteral (piece ++ inside) (c :: text)

theorem unitEscape_unicodeEscape {unit : Nat} (h : unit < 0x10000) :
    UnitEscape (unicodeEscape unit) unit := by
  have hdigit : ∀ n, hexValue? (hexDigit (n % 16)) = some (n % 16) :=
    fun n => hexValue?_hexDigit (n % 16) (Nat.mod_lt n (by omega))
  have hunit : ((unit / 4096 % 16 * 16 + unit / 256 % 16) * 16 + unit / 16 % 16) * 16 + unit % 16
      = unit := by
    omega
  have hdigits := UnitEscape.digits (hdigit (unit / 4096)) (hdigit (unit / 256))
    (hdigit (unit / 16)) (hdigit unit)
  rw [hunit] at hdigits
  exact hdigits

/-- A control character is spelled by its code unit. -/
theorem charLiteral_unicodeEscape {c : Char} (h : c.toNat < 0x20) :
    CharLiteral (unicodeEscape c.toNat) c := by
  have hbound : c.toNat < 0x10000 := by omega
  have hunit := CharLiteral.unit (unitEscape_unicodeEscape hbound) (by omega)
  rw [Char.ofNat_toNat] at hunit
  exact hunit

/-- A text becomes a string literal once each of its characters is written as a piece. -/
theorem stringLiteral_flatMap {escape : Char → List Char}
    (hescape : ∀ c, CharLiteral (escape c) c) (text : List Char) :
    StringLiteral (text.flatMap escape) text := by
  induction text with
  | nil => exact .nil
  | cons c text ih => exact .cons (hescape c) ih

/-! ## Reading string literals -/

namespace StringState

/-- Read a string to its closing quote: its text, and what stands behind it. -/
def close? : StringState → List Char → Option (Option String × List Char)
  | _, [] => none
  | s, c :: cs =>
      match s.step c with
      | .more s => s.close? cs
      | .closed text => some (text, cs)
      | .refused => none
termination_by structural _ cs => cs

/-- A string between two characters, after these, last first. -/
def after (chars : List Char) : StringState := ⟨some chars, none, .between⟩

theorem close?_quote (chars t : List Char) :
    (after chars).close? ('"' :: t) = some (some (String.ofList chars.reverse), t) := rfl

theorem close?_digit {s : StringState} {count value i : Nat} {c : Char}
    (hphase : s.phase = .unit count value) (hcount : count ≠ 3) (hc : hexValue? c = some i)
    (t : List Char) :
    s.close? (c :: t) = { s with phase := .unit (count + 1) (value * 16 + i) }.close? t := by
  simp [close?, step, hphase, hc, hcount]

theorem close?_lastDigit {s : StringState} {value i : Nat} {c : Char}
    (hphase : s.phase = .unit 3 value) (hc : hexValue? c = some i) (t : List Char) :
    s.close? (c :: t) = (s.pushUnit (value * 16 + i)).close? t := by
  simp [close?, step, hphase, hc]

/-- An escape by code unit is read as the unit. -/
theorem close?_unit {piece : List Char} {unit : Nat} (h : UnitEscape piece unit)
    {s : StringState} (hphase : s.phase = .between) (t : List Char) :
    s.close? (piece ++ t) = (s.pushUnit unit).close? t := by
  cases h with
  | @digits a b c d i j k l ha hb hc hd =>
      have hopen : s.close? (['\\', 'u', a, b, c, d] ++ t)
          = { s with phase := .unit 0 0 }.close? (a :: b :: c :: d :: t) := by
        simp [close?, step, hphase]
      have hfirst : 0 * 16 + i = i := by omega
      rw [hopen, close?_digit rfl (by omega) ha, close?_digit rfl (by omega) hb,
        close?_digit rfl (by omega) hc, close?_lastDigit rfl hd, hfirst]
      rfl

theorem escaped?_of_mem {letter c : Char} (h : (letter, c) ∈ escapeLetters) :
    letter ≠ 'u' ∧ escaped? letter = some c := by
  have hall : ∀ p ∈ escapeLetters, p.1 ≠ 'u' ∧ escaped? p.1 = some p.2 := by
    simp [escapeLetters, escaped?]
  exact hall (letter, c) h

end StringState

open StringState

/-- A piece of a string literal is read as the character that it stands for. -/
theorem CharLiteral.close? {piece : List Char} {c : Char} (h : CharLiteral piece c)
    (chars t : List Char) :
    (after chars).close? (piece ++ t) = (after (c :: chars)).close? t := by
  cases h with
  | plain hquote hbackslash hcontrol =>
      have hplain : ¬ c.toNat < 0x20 := by omega
      simp [StringState.close?, step, after, hquote, hbackslash, hplain, push, whole]
  | letter h =>
      obtain ⟨hu, hletter⟩ := escaped?_of_mem h
      simp [StringState.close?, step, after, hu, hletter, push, whole]
  | unit h hscalar =>
      rw [close?_unit h rfl, pushUnit, if_neg (by omega), if_neg (by omega)]
      rfl
  | pair h hhigh h' hlow =>
      -- The first half is held until the second one comes.
      rw [List.append_assoc, close?_unit h rfl, pushUnit, if_pos hhigh, close?_unit h' rfl,
        pushUnit, if_neg (by omega), if_pos hlow]
      rfl

/-- A string literal is read to its closing quote as the text that it stands for. -/
theorem StringLiteral.close? {inside text : List Char} (h : StringLiteral inside text)
    (t : List Char) :
    opened.close? (inside ++ '"' :: t) = some (some (String.ofList text), t) := by
  have hall : ∀ chars : List Char, (after chars).close? (inside ++ '"' :: t)
      = some (some (String.ofList (chars.reverse ++ text)), t) := by
    induction h with
    | nil =>
        intro chars
        rw [List.append_nil]
        exact close?_quote chars t
    | cons hpiece _ ih =>
        intro chars
        rw [List.append_assoc, hpiece.close?, ih, List.reverse_cons, List.append_assoc]
        rfl
  exact hall []

end TypedStyles.Json
