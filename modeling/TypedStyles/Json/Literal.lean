import TypedStyles.Json.Value
import TypedStyles.Text.Escape

/-!
# Reading strings and numbers

A JSON text is read one character at a time.  This file holds the two kinds of
value that take more than a fixed word: what is read inside a string, and what
is read inside a number.

A string ends at its closing quote.  Control characters may not stand in it.
Two escapes in a row may be the halves of one character outside the basic
plane.  A half without its other half leaves the string without a text, but the
string is still read to its end.

A number has no closing character.  It ends where the next character cannot
continue it, and it is complete only in some of its phases.
-/

namespace TypedStyles.Json

/-! ## Strings -/

/-- Where in a string the next character stands. -/
inductive StringPhase where
  /-- Between two characters. -/
  | between
  /-- After a backslash. -/
  | escape
  /-- In the digits of a code unit: how many were read, and their value. -/
  | unit (count value : Nat)
deriving DecidableEq

/-- What was read of a string. -/
structure StringState where
  /-- The characters, last first, unless a half pair was passed. -/
  chars : Option (List Char)
  /-- The first half of a pair, if it came last. -/
  half : Option Nat
  /-- Where the next character stands. -/
  phase : StringPhase
deriving DecidableEq

/-- What a character does to a string. -/
inductive StringStep where
  /-- The string goes on. -/
  | more (s : StringState)
  /-- The string is closed, with its text if it has one. -/
  | closed (text : Option String)
  /-- The character may not stand here. -/
  | refused

namespace StringState

/-- The string after its opening quote. -/
def opened : StringState := ⟨some [], none, .between⟩

/-- The characters, if no half pair is left over. -/
def whole (s : StringState) : Option (List Char) :=
  match s.half with
  | none => s.chars
  | some _ => none

/-- Append a character. -/
def push (s : StringState) (c : Char) : StringState := ⟨s.whole.map (c :: ·), none, .between⟩

/-- Append a code unit that was escaped. -/
def pushUnit (s : StringState) (unit : Nat) : StringState :=
  if 0xD800 ≤ unit ∧ unit < 0xDC00 then ⟨s.whole, some unit, .between⟩
  else if 0xDC00 ≤ unit ∧ unit < 0xE000 then
    match s.half with
    | some high =>
        let c := Char.ofNat (0x10000 + (high - 0xD800) * 0x400 + (unit - 0xDC00))
        ⟨s.chars.map (c :: ·), none, .between⟩
    | none => ⟨none, none, .between⟩
  else s.push (Char.ofNat unit)

/-- The character that a letter stands for after a backslash. -/
def escaped? : Char → Option Char
  | '"' => some '"'
  | '\\' => some '\\'
  | '/' => some '/'
  | 'b' => some '\x08'
  | 'f' => some '\x0c'
  | 'n' => some '\n'
  | 'r' => some '\r'
  | 't' => some '\t'
  | _ => none

/-- Read one character of a string. -/
def step (s : StringState) (c : Char) : StringStep :=
  match s.phase with
  | .between =>
      if c = '"' then .closed (s.whole.map fun cs => String.ofList cs.reverse)
      else if c = '\\' then .more { s with phase := .escape }
      else if c.toNat < 0x20 then .refused
      else .more (s.push c)
  | .escape =>
      if c = 'u' then .more { s with phase := .unit 0 0 }
      else
        match escaped? c with
        | some c => .more (s.push c)
        | none => .refused
  | .unit count value =>
      match hexValue? c with
      | none => .refused
      | some d =>
          let value := value * 16 + d
          if count = 3 then .more (s.pushUnit value)
          else .more { s with phase := .unit (count + 1) value }

end StringState

/-! ## Numbers -/

/-- Which part of a number was read last. -/
inductive NumberPhase where
  | minus
  /-- A leading zero, after which no digit may follow. -/
  | zero
  /-- A digit before the point. -/
  | integer
  | point
  /-- A digit after the point. -/
  | fraction
  | mark
  | sign
  | exponent
deriving DecidableEq

/-- What was read of a number. -/
structure NumberState where
  /-- Which part was read last. -/
  phase : NumberPhase
  /-- The number has a minus sign. -/
  negative : Bool
  /-- The digits before and after the point, read as one number. -/
  digits : Nat
  /-- How many digits stand after the point. -/
  places : Nat
  /-- The exponent has a minus sign. -/
  small : Bool
  /-- The digits of the exponent. -/
  power : Nat
deriving DecidableEq

namespace NumberState

/-- The number after its first character. -/
def opened? (c : Char) : Option NumberState :=
  if c = '-' then some ⟨.minus, true, 0, 0, false, 0⟩
  else if c = '0' then some ⟨.zero, false, 0, 0, false, 0⟩
  else if c.isDigit then some ⟨.integer, false, c.toNat - 48, 0, false, 0⟩
  else none

/-- Append a digit before the point. -/
def pushInteger (n : NumberState) (c : Char) : NumberState :=
  { n with phase := .integer, digits := n.digits * 10 + (c.toNat - 48) }

/-- Append a digit after the point. -/
def pushFraction (n : NumberState) (c : Char) : NumberState :=
  { n with phase := .fraction, digits := n.digits * 10 + (c.toNat - 48), places := n.places + 1 }

/-- Append a digit of the exponent. -/
def pushPower (n : NumberState) (c : Char) : NumberState :=
  { n with phase := .exponent, power := n.power * 10 + (c.toNat - 48) }

/-- Open the fraction or the exponent, where the digits before may end. -/
def openPart? (n : NumberState) (c : Char) : Option NumberState :=
  if c = '.' ∧ n.phase ≠ .fraction then some { n with phase := .point }
  else if c = 'e' ∨ c = 'E' then some { n with phase := .mark }
  else none

/-- Read one more character of a number, if it continues the number. -/
def step? (n : NumberState) (c : Char) : Option NumberState :=
  match n.phase with
  | .minus =>
      if c = '0' then some { n with phase := .zero }
      else if c.isDigit then some (n.pushInteger c) else none
  | .zero => n.openPart? c
  | .integer => if c.isDigit then some (n.pushInteger c) else n.openPart? c
  | .point => if c.isDigit then some (n.pushFraction c) else none
  | .fraction => if c.isDigit then some (n.pushFraction c) else n.openPart? c
  | .mark =>
      if c = '+' then some { n with phase := .sign }
      else if c = '-' then some { n with phase := .sign, small := true }
      else if c.isDigit then some (n.pushPower c) else none
  | .sign => if c.isDigit then some (n.pushPower c) else none
  | .exponent => if c.isDigit then some (n.pushPower c) else none

/-- The exponent with its sign, less the digits after the point. -/
def scale (n : NumberState) : Int :=
  (if n.small then -(n.power : Int) else n.power) - n.places

/-- The number, if it may end here. -/
def number? (n : NumberState) : Option Number :=
  match n.phase with
  | .zero | .integer => some ⟨n.negative, n.digits, 0, true⟩
  | .fraction | .exponent => some ⟨n.negative, n.digits, n.scale, false⟩
  | .minus | .point | .mark | .sign => none

end NumberState

end TypedStyles.Json
