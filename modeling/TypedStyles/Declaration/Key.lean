import TypedStyles.Text.Escape

/-!
# Keys

A name is written into a declaration as a key between double quotes.  The quote
and the backslash take a backslash.  Line feed, carriage return and tab have a
letter each, and every other control character is escaped by its code unit.
All other characters stand for themselves.
-/

namespace TypedStyles.Key

/-- A character as it stands in a key. -/
def escape (c : Char) : List Char :=
  if c = '"' then ['\\', '"']
  else if c = '\\' then ['\\', '\\']
  else if c = '\n' then ['\\', 'n']
  else if c = '\r' then ['\\', 'r']
  else if c = '\t' then ['\\', 't']
  else if c.toNat < 0x20 then unicodeEscape c.toNat
  else [c]

/-- A name as it stands between the quotes of a key. -/
def escapeAll (name : String) : String := String.ofList (name.toList.flatMap escape)

example : escapeAll "a\"b\\\x08é" = "a\\\"b\\\\\\u0008é" := by decide +kernel

end TypedStyles.Key
