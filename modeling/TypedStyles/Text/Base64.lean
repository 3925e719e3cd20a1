/-!
# Base 64

Sixty-four characters stand for the numbers below 64.  `digit` gives the
character of a number and `value?` the number of a character.  The two undo
each other (`value?_digit`, `digit_of_value?`).

`encode` writes bytes as text: three bytes make four characters, and an
incomplete last group is filled up with `=`.  `decode?` reads such a text back.
It is strict.  The padding must be there, and the bits that the padding stands
for must be zero.  `decode?_encode` says that every written text reads back.
-/

namespace TypedStyles.Base64

/-! ## Digits -/

/-- The sixty-four characters, in the order of the numbers they stand for. -/
def alphabet : List Char :=
  ['A', 'B', 'C', 'D', 'E', 'F', 'G', 'H', 'I', 'J', 'K', 'L', 'M', 'N', 'O', 'P',
   'Q', 'R', 'S', 'T', 'U', 'V', 'W', 'X', 'Y', 'Z', 'a', 'b', 'c', 'd', 'e', 'f',
   'g', 'h', 'i', 'j', 'k', 'l', 'm', 'n', 'o', 'p', 'q', 'r', 's', 't', 'u', 'v',
   'w', 'x', 'y', 'z', '0', '1', '2', '3', '4', '5', '6', '7', '8', '9', '+', '/']

/-- The character that stands for a number below 64. -/
def digit (n : Nat) : Char := alphabet[n]?.getD 'A'

/-- The number a character stands for, if it is one of the sixty-four. -/
def value? (c : Char) : Option Nat := alphabet.idxOf? c

theorem length_alphabet : alphabet.length = 64 := rfl

/-- A number below 64 is read back from its character. -/
theorem value?_digit (n : Nat) (h : n < 64) : value? (digit n) = some n := by
  have all : ∀ m : Fin 64, value? (digit m) = some m.val := by decide +kernel
  exact all ⟨n, h⟩

/-- A character with a value is the digit of that value. -/
theorem digit_of_value? {c : Char} {n : Nat} (h : value? c = some n) :
    n < 64 ∧ digit n = c := by
  obtain ⟨hn, hc, -⟩ := List.idxOf?_eq_some_iff.mp h
  refine ⟨length_alphabet ▸ hn, ?_⟩
  rw [digit, List.getElem?_eq_getElem hn, Option.getD_some, hc]

/-! ## Bytes -/

/-- The base-64 text of some bytes. -/
def encode : List UInt8 → List Char
  | [] => []
  | [x] =>
      let n := x.toNat * 16
      [digit (n / 64), digit (n % 64), '=', '=']
  | [x, y] =>
      let n := (x.toNat * 256 + y.toNat) * 4
      [digit (n / 4096), digit (n / 64 % 64), digit (n % 64), '=']
  | x :: y :: z :: rest =>
      let n := (x.toNat * 256 + y.toNat) * 256 + z.toNat
      digit (n / 262144) :: digit (n / 4096 % 64) :: digit (n / 64 % 64) :: digit (n % 64) ::
        encode rest

/-- The bytes of the last four characters of a text, where padding may stand. -/
def decodeLast? (a b c d : Char) : Option (List UInt8) := do
  let a ← value? a
  let b ← value? b
  if d = '=' then
    if c = '=' then
      let n := a * 64 + b
      if n % 16 = 0 then some [UInt8.ofNat (n / 16)] else none
    else
      let c ← value? c
      let n := (a * 64 + b) * 64 + c
      if n % 4 = 0 then some [UInt8.ofNat (n / 1024), UInt8.ofNat (n / 4 % 256)] else none
  else
    let c ← value? c
    let d ← value? d
    let n := ((a * 64 + b) * 64 + c) * 64 + d
    some [UInt8.ofNat (n / 65536), UInt8.ofNat (n / 256 % 256), UInt8.ofNat (n % 256)]

/-- The bytes that a base-64 text stands for, if it is one. -/
def decode? : List Char → Option (List UInt8)
  | [] => some []
  | [a, b, c, d] => decodeLast? a b c d
  | a :: b :: c :: d :: rest => do
      let a ← value? a
      let b ← value? b
      let c ← value? c
      let d ← value? d
      let n := ((a * 64 + b) * 64 + c) * 64 + d
      let bytes ← decode? rest
      some (UInt8.ofNat (n / 65536) :: UInt8.ofNat (n / 256 % 256) :: UInt8.ofNat (n % 256) ::
        bytes)
  | _ => none

/-! ## Reading back -/

theorem digit_ne_padding (n : Nat) (h : n < 64) : digit n ≠ '=' := by
  intro e
  have hv := value?_digit n h
  have none_eq : value? '=' = none := by decide +kernel
  rw [e, none_eq] at hv
  cases hv

/-- Three bytes are read back from the number that packs them. -/
theorem unpack_three (x y z : UInt8) (n : Nat)
    (h : n = (x.toNat * 256 + y.toNat) * 256 + z.toNat) :
    UInt8.ofNat (n / 65536) = x ∧ UInt8.ofNat (n / 256 % 256) = y ∧
      UInt8.ofNat (n % 256) = z := by
  have hx := x.toNat_lt
  have hy := y.toNat_lt
  have hz := z.toNat_lt
  have h1 : n / 65536 = x.toNat := by omega
  have h2 : n / 256 % 256 = y.toNat := by omega
  have h3 : n % 256 = z.toNat := by omega
  rw [h1, h2, h3]
  simp

/-- The four digits of a packed number make the number again. -/
theorem repack (n : Nat) :
    ((n / 262144 * 64 + n / 4096 % 64) * 64 + n / 64 % 64) * 64 + n % 64 = n := by
  omega

/-- Every written text reads back. -/
theorem decode?_encode : ∀ bytes : List UInt8, decode? (encode bytes) = some bytes
  | [] => rfl
  | [x] => by
      have hx := x.toNat_lt
      have h1 : x.toNat * 16 / 64 * 64 + x.toNat * 16 % 64 = x.toNat * 16 := by omega
      simp [encode, decode?, decodeLast?, value?_digit _ (show x.toNat * 16 / 64 < 64 by omega),
        value?_digit _ (show x.toNat * 16 % 64 < 64 by omega), h1]
  | [x, y] => by
      have hx := x.toNat_lt
      have hy := y.toNat_lt
      generalize hn : (x.toNat * 256 + y.toNat) * 4 = n
      have h1 : (n / 4096 * 64 + n / 64 % 64) * 64 + n % 64 = n := by omega
      have h2 : n / 1024 = x.toNat := by omega
      have h3 : n / 4 % 256 = y.toNat := by omega
      have h4 : n % 4 = 0 := by omega
      simp [encode, decode?, decodeLast?, hn, value?_digit _ (show n / 4096 < 64 by omega),
        value?_digit _ (show n / 64 % 64 < 64 by omega),
        value?_digit _ (show n % 64 < 64 by omega),
        digit_ne_padding _ (show n % 64 < 64 by omega), h1, h2, h3, h4]
  | [x, y, z] => by
      have hx := x.toNat_lt
      have hy := y.toNat_lt
      have hz := z.toNat_lt
      generalize hn : (x.toNat * 256 + y.toNat) * 256 + z.toNat = n
      obtain ⟨u1, u2, u3⟩ := unpack_three x y z n hn.symm
      simp only [encode, hn, decode?, decodeLast?,
        value?_digit _ (show n / 262144 < 64 by omega),
        value?_digit _ (show n / 4096 % 64 < 64 by omega),
        value?_digit _ (show n / 64 % 64 < 64 by omega),
        value?_digit _ (show n % 64 < 64 by omega),
        if_neg (digit_ne_padding _ (show n % 64 < 64 by omega)),
        Option.bind_eq_bind, Option.bind_some, repack, u1, u2, u3]
  | x :: y :: z :: w :: rest => by
      have ih := decode?_encode (w :: rest)
      have hx := x.toNat_lt
      have hy := y.toNat_lt
      have hz := z.toNat_lt
      generalize hn : (x.toNat * 256 + y.toNat) * 256 + z.toNat = n
      obtain ⟨u1, u2, u3⟩ := unpack_three x y z n hn.symm
      obtain ⟨c, cs, hc⟩ : ∃ c cs, encode (w :: rest) = c :: cs := by
        match rest with
        | [] => exact ⟨_, _, rfl⟩
        | [v] => exact ⟨_, _, rfl⟩
        | v :: u :: more => exact ⟨_, _, rfl⟩
      rw [encode, hn, hc]
      rw [hc] at ih
      simp only [decode?,
        value?_digit _ (show n / 262144 < 64 by omega),
        value?_digit _ (show n / 4096 % 64 < 64 by omega),
        value?_digit _ (show n / 64 % 64 < 64 by omega),
        value?_digit _ (show n % 64 < 64 by omega),
        Option.bind_eq_bind, Option.bind_some, repack, u1, u2, u3, ih]

/-! ## Tests -/

example : String.ofList (encode [77, 97, 110]) = "TWFu" := by decide +kernel
example : String.ofList (encode [77, 97]) = "TWE=" := by decide +kernel
example : String.ofList (encode [77]) = "TQ==" := by decide +kernel
example : decode? "TWFuTWE=".toList = some [77, 97, 110, 77, 97] := by decide +kernel
/-- The bits under the padding must be zero. -/
example : decode? "TR==".toList = none := by decide +kernel

end TypedStyles.Base64
