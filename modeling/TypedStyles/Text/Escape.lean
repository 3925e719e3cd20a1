/-!
# Escapes by code unit

Where a character may not stand in a string literal, it is written as `\u` and
the four hexadecimal digits of its code unit.
-/

namespace TypedStyles

/-- The hexadecimal digit of a number below 16, in lower case. -/
def hexDigit (n : Nat) : Char := Nat.digitChar n

/-- The number of a hexadecimal digit in either case. -/
def hexValue? (c : Char) : Option Nat :=
  if '0' ≤ c ∧ c ≤ '9' then some (c.toNat - 48)
  else if 'a' ≤ c ∧ c ≤ 'f' then some (c.toNat - 87)
  else if 'A' ≤ c ∧ c ≤ 'F' then some (c.toNat - 55)
  else none

/-- The escape of a code unit below 2^16. -/
def unicodeEscape (unit : Nat) : List Char :=
  ['\\', 'u', hexDigit (unit / 4096 % 16), hexDigit (unit / 256 % 16),
    hexDigit (unit / 16 % 16), hexDigit (unit % 16)]

/-- A digit is read back as its number. -/
theorem hexValue?_hexDigit (n : Nat) (h : n < 16) : hexValue? (hexDigit n) = some n := by
  have all : ∀ m : Fin 16, hexValue? (hexDigit m) = some m.val := by decide
  exact all ⟨n, h⟩

example : unicodeEscape 0x1b = ['\\', 'u', '0', '0', '1', 'b'] := by decide

end TypedStyles
