import TypedStyles.Json.Value
import TypedStyles.Text.Escape

/-!
# Writing JSON

`Json.print` writes a value without any spaces.  In a string, the quote, the
backslash and the control characters are escaped, and every other character
stands for itself.  A string without a text is written as half a surrogate
pair, which is what reads back as one.
-/

namespace TypedStyles

/-- A character as it stands in a JSON string. -/
def Json.escape (c : Char) : List Char :=
  if c = '"' then ['\\', '"']
  else if c = '\\' then ['\\', '\\']
  else if c = '\x08' then ['\\', 'b']
  else if c = '\x0c' then ['\\', 'f']
  else if c = '\n' then ['\\', 'n']
  else if c = '\r' then ['\\', 'r']
  else if c = '\t' then ['\\', 't']
  else if c.toNat < 0x20 then unicodeEscape c.toNat
  else [c]

/-- A string in its quotes. -/
def Json.quote : Option String → List Char
  | some s => '"' :: (s.toList.flatMap escape ++ ['"'])
  | none => '"' :: (unicodeEscape 0xD800 ++ ['"'])

/-- The digits of a natural number. -/
def decimal (n : Nat) : List Char := Nat.toDigits 10 n

/-- A number, with an exponent unless it is plain. -/
def Number.print (n : Number) : List Char :=
  (if n.negative then ['-'] else []) ++ decimal n.digits ++
    if n.plain then []
    else 'e' :: ((if n.exponent < 0 then ['-'] else []) ++ decimal n.exponent.natAbs)

namespace Json

mutual

/-- The text of a value. -/
def print : Json → List Char
  | .null => ['n', 'u', 'l', 'l']
  | .bool true => ['t', 'r', 'u', 'e']
  | .bool false => ['f', 'a', 'l', 's', 'e']
  | .number n => n.print
  | .string t => quote t
  | .array items => '[' :: ([','].intercalate (printItems items) ++ [']'])
  | .object members => '\x7b' :: ([','].intercalate (printMembers members) ++ ['\x7d'])
termination_by structural j => j

/-- The texts of the items of an array. -/
def printItems : List Json → List (List Char)
  | [] => []
  | j :: js => print j :: printItems js
termination_by structural js => js

/-- The texts of the members of an object. -/
def printMembers : List (Option String × Json) → List (List Char)
  | [] => []
  | m :: ms => printMember m :: printMembers ms
termination_by structural ms => ms

/-- The text of a member. -/
def printMember : Option String × Json → List Char
  | (key, j) => quote key ++ ':' :: print j
termination_by structural m => m

end

/-- The text of a value, as a string. -/
def render (j : Json) : String := String.ofList j.print

end Json

/-! ## Tests -/

example : (Json.record [("a", .array [.nat 10, .text "\"\x01\x08"])]).render
    = "\x7b\"a\":[10,\"\\\"\\u0001\\b\"]\x7d" := by decide +kernel

end TypedStyles
