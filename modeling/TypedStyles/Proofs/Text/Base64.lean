import TypedStyles.Text.Base64

/-!
# The form of base-64 texts

A base-64 text consists of groups of four characters.  The last group may hold
one or two bytes instead of three, and then `=` stands for what is missing
(`Padded`).  Every text that is written has this form (`padded_encode`).  Its
length follows from the number of bytes alone (`length_encode`).
-/

namespace TypedStyles.Base64

/-- The form of a base-64 text: whole groups, and at most one padded group at the end. -/
inductive Padded : List Char → Prop
  | nil : Padded []
  | oneByte {a b : Char} (ha : a ∈ alphabet) (hb : b ∈ alphabet) : Padded [a, b, '=', '=']
  | twoBytes {a b c : Char} (ha : a ∈ alphabet) (hb : b ∈ alphabet) (hc : c ∈ alphabet) :
      Padded [a, b, c, '=']
  | group {a b c d : Char} {rest : List Char} (ha : a ∈ alphabet) (hb : b ∈ alphabet)
      (hc : c ∈ alphabet) (hd : d ∈ alphabet) (hrest : Padded rest) :
      Padded (a :: b :: c :: d :: rest)

theorem digit_mem {n : Nat} (h : n < 64) : digit n ∈ alphabet := by
  rw [digit, List.getElem?_eq_getElem (length_alphabet ▸ h), Option.getD_some]
  exact List.getElem_mem _

/-- Every base-64 text has the form of one. -/
theorem padded_encode : ∀ bytes : List UInt8, Padded (encode bytes)
  | [] => .nil
  | [x] => by
      have hx := x.toNat_lt
      exact .oneByte (digit_mem (by omega)) (digit_mem (by omega))
  | [x, y] => by
      have hx := x.toNat_lt
      have hy := y.toNat_lt
      exact .twoBytes (digit_mem (by omega)) (digit_mem (by omega)) (digit_mem (by omega))
  | x :: y :: z :: rest => by
      have hx := x.toNat_lt
      have hy := y.toNat_lt
      have hz := z.toNat_lt
      exact .group (digit_mem (by omega)) (digit_mem (by omega)) (digit_mem (by omega))
        (digit_mem (by omega)) (padded_encode rest)

theorem Padded.mem {text : List Char} (h : Padded text) :
    ∀ c ∈ text, c ∈ alphabet ∨ c = '=' := by
  induction h with
  | nil => simp
  | oneByte ha hb => simp [ha, hb]
  | twoBytes ha hb hc => simp [ha, hb, hc]
  | group ha hb hc hd _ ih => simpa [ha, hb, hc, hd] using ih

/-- Four characters for every three bytes that are begun. -/
theorem length_encode : ∀ bytes : List UInt8,
    (encode bytes).length = 4 * ((bytes.length + 2) / 3)
  | [] => rfl
  | [_] => by simp [encode]
  | [_, _] => by simp [encode]
  | _ :: _ :: _ :: rest => by
      have ih := length_encode rest
      simp only [encode, List.length_cons, ih]
      omega

end TypedStyles.Base64
