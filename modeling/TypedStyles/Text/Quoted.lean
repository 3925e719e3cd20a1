import TypedStyles.Text.Printable

/-!
# Quoted text in messages

A message shows a piece of input between quotes, so that a reader sees where it
begins and ends.  A text stands between double quotes and a character between
single quotes.  The quote in use and the backslash take a backslash.  Tab, line
feed, carriage return and the null character have a letter each.  Any other
character that is not printable is written by its code point, as `\u` and the
hexadecimal digits in braces.
-/

namespace TypedStyles.Quoted

/-- The hexadecimal digits of a number, in lower case and without padding. -/
def hex (n : Nat) : List Char := Nat.toDigits 16 n

/-- A character as it stands inside quotes of the kind `quote`. -/
def escape (quote c : Char) : List Char :=
  if c = quote ∨ c = '\\' then ['\\', c]
  else if c = '\n' then ['\\', 'n']
  else if c = '\r' then ['\\', 'r']
  else if c = '\t' then ['\\', 't']
  else if c = '\x00' then ['\\', '0']
  else if isPrintable c then [c]
  else '\\' :: 'u' :: '\x7b' :: (hex c.toNat ++ ['\x7d'])

/-- A text between double quotes. -/
def text (s : List Char) : String :=
  String.ofList ('"' :: (s.flatMap (escape '"') ++ ['"']))

/-- A character between single quotes. -/
def char (c : Char) : String :=
  String.ofList ('\'' :: (escape '\'' c ++ ['\'']))

/-! ## Tests -/

example : text ['A', '"', '\'', '\n'] = "\"A\\\"'\\n\"" := by decide +kernel
example : text ['\x1b', 'é'] = "\"\\u\x7b1b\x7dé\"" := by decide +kernel
example : char '\'' = "'\\''" ∧ char '"' = "'\"'" := by decide +kernel

end TypedStyles.Quoted
