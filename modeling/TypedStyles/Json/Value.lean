/-!
# JSON values

A `Json` is a JSON text once its spaces and its spellings are forgotten.  Two
things are kept that a value alone would not show.

* A number keeps whether it was written as a plain integer.  `1`, `1.0` and
  `1e0` are one number but not one spelling, and only the first is an integer.
* A string may escape half of a surrogate pair.  Such a string has no text.

Members of an object keep their order, and a key may occur twice.

A value that is only passed over may be of any shape.  A value that is set
aside before it is understood must be `Kept`: its strings have a text, its
numbers fit a double, and its nesting is bounded.
-/

namespace TypedStyles

/-- A number as it is written: `digits` times ten to the `exponent`. -/
structure Number where
  /-- The number has a minus sign. -/
  negative : Bool
  /-- The digits before and after the point, read as one number. -/
  digits : Nat
  /-- The power of ten that the digits are multiplied with. -/
  exponent : Int
  /-- The number is written without a point and without an exponent. -/
  plain : Bool
deriving DecidableEq

namespace Number

/-- The plain spelling of a natural number. -/
def ofNat (n : Nat) : Number := ⟨false, n, 0, true⟩

/-- The 32-bit word that a number is, if it is written as one. -/
def word? (n : Number) : Option UInt32 :=
  if n.negative = false ∧ n.plain = true ∧ n.digits < 0x100000000 then some (UInt32.ofNat n.digits)
  else none

/-- The least magnitude that no double is near to: halfway between the largest
double and the power of two above it. -/
def doubleLimit : Nat := Nat.pow 2 1024 - Nat.pow 2 970

/-- The number rounds to a double.  The limit has 309 digits, so only numbers
of that size have to be worked out. -/
def fitsDouble (n : Number) : Bool :=
  let size := (Nat.toDigits 10 n.digits).length + n.exponent
  n.digits = 0 || size < 309 ||
    size = 309 &&
      n.digits * Nat.pow 10 n.exponent.toNat < doubleLimit * Nat.pow 10 (-n.exponent).toNat

end Number

/-- A JSON value. -/
inductive Json where
  | null
  | bool (value : Bool)
  | number (value : Number)
  /-- A string, with its text if it has one. -/
  | string (text : Option String)
  | array (items : List Json)
  | object (members : List (Option String × Json))

namespace Json

/-- The string with this text. -/
def text (s : String) : Json := .string (some s)

/-- The natural number of this value. -/
def nat (n : Nat) : Json := .number (.ofNat n)

/-- The object with these members. -/
def record (members : List (String × Json)) : Json :=
  .object (members.map fun m => (some m.1, m.2))

/-! ## Values that are set aside -/

mutual

/-- The value can be set aside where `room` levels of nesting are left. -/
def kept : Nat → Json → Bool
  | _, .null => true
  | _, .bool _ => true
  | _, .number n => n.fitsDouble
  | _, .string t => t.isSome
  | 0, .array _ => false
  | room + 1, .array items => keptItems room items
  | 0, .object _ => false
  | room + 1, .object members => keptMembers room members
termination_by structural _ j => j

/-- Every item can be set aside. -/
def keptItems : Nat → List Json → Bool
  | _, [] => true
  | room, j :: js => kept room j && keptItems room js
termination_by structural _ js => js

/-- Every member can be set aside, its key too. -/
def keptMembers : Nat → List (Option String × Json) → Bool
  | _, [] => true
  | room, m :: ms => keptMember room m && keptMembers room ms
termination_by structural _ ms => ms

/-- The member can be set aside, its key too. -/
def keptMember : Nat → Option String × Json → Bool
  | room, (key, j) => key.isSome && kept room j
termination_by structural _ m => m

end

/-- The levels of nesting that a text may have where values are set aside. -/
def nestingLimit : Nat := 127

/-! ## Tests -/

example :
    (Number.mk false 1 0 true).word? = some 1 ∧ (Number.mk false 10 (-1) false).word? = none := by
  decide
example : (Number.mk false 4294967296 0 true).word? = none := by decide
example : (Number.mk false 1 999 false).fitsDouble = false := by decide +kernel
example : kept 1 (.array [.array []]) = false ∧ kept 2 (.array [.array []]) = true := by decide

end Json

end TypedStyles
