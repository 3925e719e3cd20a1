import Mathlib.Data.List.Induction
import Mathlib.Tactic.Ring
import TypedStyles.SourceMap.Vlq

/-!
# Runs of digits

The digits of one number are a run: all but the last have the continuation bit.
The low five bits of its digits make a number, lowest first (`total`), and a run
fits in a word if it has at most thirteen digits and a thirteenth has at most
four bits (`Fits`).

The reader keeps the digits of an open number in a word.  `Reading` says that the
word holds their number, which it does because a group that fits meets no bit of
the groups before it and leaves no bit outside of the word (`Reading.toNat_push`).
So `scan` reads a digit in one of four ways, and each has a lemma: the digit is
none, it makes the run too large, it continues the run, or it ends the run.
Other proofs use these lemmas and not `scan` itself.
-/

namespace TypedStyles.Vlq

/-! ## Digits -/

/-- The low five bits of a digit. -/
def bits (b : UInt8) : Nat := ((digit? b).getD 0).toNat % 32

/-- The byte is a digit that has the continuation bit. -/
def Continues (b : UInt8) : Prop := ∃ d ∈ digit? b, 32 ≤ d.toNat

/-- The byte is a digit without the continuation bit. -/
def Ends (b : UInt8) : Prop := ∃ d ∈ digit? b, d.toNat < 32

instance (b : UInt8) : Decidable (Continues b) :=
  inferInstanceAs (Decidable (∃ d ∈ digit? b, 32 ≤ d.toNat))

/-- The byte of a digit. -/
def digitByte (n : Nat) : UInt8 := UInt8.ofNat (Base64.digit n).toNat

theorem utf8EncodeChar_digit {n : Nat} (h : n < 64) :
    String.utf8EncodeChar (Base64.digit n) = [digitByte n] := by
  have all : ∀ m : Fin 64, String.utf8EncodeChar (Base64.digit m) = [digitByte m] := by
    decide +kernel
  exact all ⟨n, h⟩

theorem toNat_ofNat_digit {n : Nat} (h : n < 64) : (UInt64.ofNat n).toNat = n :=
  UInt64.toNat_ofNat_of_lt' (Nat.lt_trans h (by decide))

theorem digit?_digitByte {n : Nat} (h : n < 64) : digit? (digitByte n) = some (UInt64.ofNat n) := by
  have all : ∀ m : Fin 64, digit? (digitByte m) = some (UInt64.ofNat m) := by decide +kernel
  exact all ⟨n, h⟩

/-- A byte that is a digit is the byte of its value. -/
theorem digitByte_of_digit? {b : UInt8} {d : UInt64} (h : digit? b = some d) :
    d.toNat < 64 ∧ digitByte d.toNat = b := by
  obtain ⟨n, hn, rfl⟩ := Option.map_eq_some_iff.mp h
  obtain ⟨hlt, hdigit⟩ := Base64.digit_of_value? hn
  have hb : (Char.ofNat b.toNat).toNat = b.toNat := by
    have hvalid : b.toNat.isValidChar := Or.inl (by have := b.toNat_lt; omega)
    rw [Char.ofNat, dif_pos hvalid]
    rfl
  rw [toNat_ofNat_digit hlt, digitByte, hdigit, hb, UInt8.ofNat_toNat]
  exact ⟨hlt, rfl⟩

theorem bits_digitByte {n : Nat} (h : n < 64) : bits (digitByte n) = n % 32 := by
  rw [bits, digit?_digitByte h, Option.getD_some, toNat_ofNat_digit h]

theorem continues_digitByte {n : Nat} (h : n < 64) (hn : 32 ≤ n) : Continues (digitByte n) := by
  refine ⟨_, digit?_digitByte h, ?_⟩
  rwa [toNat_ofNat_digit h]

theorem ends_digitByte {n : Nat} (h : n < 32) : Ends (digitByte n) := by
  have hdigit : n < 64 := by omega
  refine ⟨_, digit?_digitByte hdigit, ?_⟩
  rwa [toNat_ofNat_digit hdigit]

theorem eq_of_ends {b : UInt8} (h : Ends b) : digitByte (bits b) = b := by
  obtain ⟨d, hd, hlow⟩ := h
  rw [bits, Option.mem_def.mp hd, Option.getD_some, Nat.mod_eq_of_lt hlow]
  exact (digitByte_of_digit? hd).2

theorem eq_of_continues {b : UInt8} (h : Continues b) : digitByte (bits b + 32) = b := by
  obtain ⟨d, hd, hhigh⟩ := h
  obtain ⟨hlt, hbyte⟩ := digitByte_of_digit? hd
  have hsum : d.toNat % 32 + 32 = d.toNat := by omega
  rw [bits, Option.mem_def.mp hd, Option.getD_some, hsum, hbyte]

theorem not_ends_of_continues {b : UInt8} (h : Continues b) : ¬ Ends b := by
  rintro ⟨e, he, hlow⟩
  obtain ⟨d, hd, hhigh⟩ := h
  rw [Option.some.inj (hd.symm.trans he)] at hhigh
  omega

theorem continues_or_ends {b : UInt8} (h : digit? b ≠ none) : Continues b ∨ Ends b := by
  obtain ⟨d, hd⟩ := Option.ne_none_iff_exists'.mp h
  by_cases hhigh : 32 ≤ d.toNat
  · exact Or.inl ⟨d, hd, hhigh⟩
  · exact Or.inr ⟨d, hd, Nat.lt_of_not_le hhigh⟩

theorem digit?_ne_none_of_continues {b : UInt8} (h : Continues b) : digit? b ≠ none := by
  obtain ⟨d, hd, -⟩ := h
  rw [hd]
  exact Option.some_ne_none d

theorem digit?_ne_none_of_ends {b : UInt8} (h : Ends b) : digit? b ≠ none := by
  obtain ⟨d, hd, -⟩ := h
  rw [hd]
  exact Option.some_ne_none d

theorem bits_lt (b : UInt8) : bits b < 32 := Nat.mod_lt _ (by omega)

/-! ## Runs -/

/-- The digits of one number.  All but the last have the continuation bit. -/
inductive IsRun : List UInt8 → Prop where
  | last {b : UInt8} : Ends b → IsRun [b]
  | more {b : UInt8} {run : List UInt8} : Continues b → IsRun run → IsRun (b :: run)

theorem IsRun.ne_nil {run : List UInt8} (h : IsRun run) : run ≠ [] := by
  cases h with
  | last _ => simp
  | more _ _ => simp

theorem IsRun.exists_eq_concat {run : List UInt8} (h : IsRun run) :
    ∃ opened b, run = opened ++ [b] ∧ (∀ c ∈ opened, Continues c) ∧ Ends b := by
  induction h with
  | @last b hb => exact ⟨[], b, rfl, by simp, hb⟩
  | @more c run hc hrun ih =>
      obtain ⟨opened, b, rfl, hopened, hb⟩ := ih
      exact ⟨c :: opened, b, rfl, List.forall_mem_cons.mpr ⟨hc, hopened⟩, hb⟩

/-- The digits fit in a word: there are at most thirteen, and a thirteenth has at
most four bits. -/
def Fits (run : List UInt8) : Prop := run.length ≤ 13 ∧ ∀ b ∈ run[12]?, bits b ≤ 15

instance (run : List UInt8) : Decidable (Fits run) :=
  inferInstanceAs (Decidable (run.length ≤ 13 ∧ ∀ b ∈ run[12]?, bits b ≤ 15))

/-- The number that the low five bits of the digits make, lowest first. -/
def total (run : List UInt8) : Nat := (run.mapIdx fun i b => bits b * 2 ^ (5 * i)).sum

theorem total_singleton (b : UInt8) : total [b] = bits b := by simp [total]

theorem total_concat (run : List UInt8) (b : UInt8) :
    total (run ++ [b]) = total run + bits b * 2 ^ (5 * run.length) := by
  simp [total, List.mapIdx_append]

theorem two_pow_groups_succ (n : Nat) : 2 ^ (5 * (n + 1)) = 32 * 2 ^ (5 * n) := by ring

theorem total_cons (b : UInt8) (run : List UInt8) : total (b :: run) = bits b + 32 * total run := by
  -- From the end, where one more digit leaves the places of the others as they are.
  induction run using List.reverseRecOn with
  | nil => simp [total]
  | append_singleton run c ih =>
      rw [← List.cons_append, total_concat, total_concat, ih, List.length_cons,
        two_pow_groups_succ]
      ring

theorem total_lt (run : List UInt8) : total run < 2 ^ (5 * run.length) := by
  induction run with
  | nil => simp [total]
  | cons b run ih =>
      have hb := bits_lt b
      rw [total_cons, List.length_cons, two_pow_groups_succ]
      omega

theorem Fits.of_append {run more : List UInt8} (h : Fits (run ++ more)) : Fits run := by
  obtain ⟨hlength, hlast⟩ := h
  rw [List.length_append] at hlength
  refine ⟨by omega, fun b hb => hlast b ?_⟩
  obtain ⟨hlt, -⟩ := List.getElem?_eq_some_iff.mp hb
  rw [List.getElem?_append_left hlt]
  exact hb

/-- One more digit fits if the digits before it leave room for it. -/
theorem fits_concat_iff {run : List UInt8} {b : UInt8} :
    Fits (run ++ [b]) ↔ run.length < 12 ∨ run.length = 12 ∧ bits b ≤ 15 := by
  rw [Fits, List.length_append, List.length_singleton]
  constructor
  · rintro ⟨hlength, hlast⟩
    by_cases hfull : run.length = 12
    · refine Or.inr ⟨hfull, hlast b ?_⟩
      rw [← hfull, List.getElem?_concat_length]
      exact Option.mem_some_self b
    · exact Or.inl (by omega)
  · rintro (hlength | ⟨hlength, hb⟩)
    · refine ⟨by omega, fun c hc => ?_⟩
      obtain ⟨hlt, -⟩ := List.getElem?_eq_some_iff.mp hc
      rw [List.length_append, List.length_singleton] at hlt
      omega
    · refine ⟨by omega, fun c hc => ?_⟩
      rw [← hlength, List.getElem?_concat_length] at hc
      exact Option.some.inj hc ▸ hb

/-- The number of digits that fit is a 64-bit word. -/
theorem Fits.total_lt {run : List UInt8} (h : Fits run) : total run < 2 ^ 64 := by
  cases run using List.reverseRecOn with
  | nil => simp [total]
  | append_singleton run b =>
      have hrun := Vlq.total_lt run
      rw [total_concat]
      rcases fits_concat_iff.mp h with hlength | ⟨hlength, hb⟩
      · have hpow : 2 ^ (5 * run.length) ≤ 2 ^ (5 * 11) :=
          Nat.pow_le_pow_right (by omega) (by omega)
        have hmul : bits b * 2 ^ (5 * run.length) ≤ 31 * 2 ^ (5 * 11) :=
          Nat.mul_le_mul (Nat.le_of_lt_succ (bits_lt b)) hpow
        omega
      · rw [hlength] at hrun ⊢
        have hmul : bits b * 2 ^ (5 * 12) ≤ 15 * 2 ^ (5 * 12) := Nat.mul_le_mul_right _ hb
        omega

/-! ## Words as numbers -/

/-- The number that a word of sign and magnitude stands for. -/
def number (n : Nat) : Int := if n % 2 = 0 then (n / 2 : Nat) else -((n - 1) / 2 : Nat)

/-- The number of a run, read from its total. -/
def value (run : List UInt8) : Int64 := signed (UInt64.ofNat (total run))

theorem toNat_and_31 (w : UInt64) : (w &&& 31).toNat = w.toNat % 32 := by
  rw [UInt64.toNat_and]
  exact Nat.and_two_pow_sub_one_eq_mod w.toNat 5

theorem toNat_and_31_of_digit? {b : UInt8} {d : UInt64} (h : digit? b = some d) :
    (d &&& 31).toNat = bits b := by
  rw [toNat_and_31, bits, h]
  rfl

theorem toNat_shiftRight_five (w : UInt64) : (w >>> 5).toNat = w.toNat / 32 := by
  simp [Nat.shiftRight_eq_div_pow]

theorem and_32_ne_zero_iff {d : UInt64} (h : d.toNat < 64) : d &&& 32 ≠ 0 ↔ 32 ≤ d.toNat := by
  have all : ∀ n : Fin 64, UInt64.ofNat n &&& 32 ≠ 0 ↔ 32 ≤ n.val := by decide +kernel
  simpa using all ⟨d.toNat, h⟩

/-- Bits put at a shift are added, if they meet no other and stay in the word. -/
theorem toNat_or_shiftLeft {w g s : UInt64} (hs : s.toNat < 64) (hw : w.toNat < 2 ^ s.toNat)
    (fits : w.toNat + g.toNat * 2 ^ s.toNat < 2 ^ 64) :
    (w ||| g <<< s).toNat = w.toNat + g.toNat * 2 ^ s.toNat := by
  have hor := Nat.two_pow_add_eq_or_of_lt hw g.toNat
  rw [UInt64.toNat_or, UInt64.toNat_shiftLeft, Nat.mod_eq_of_lt hs, Nat.shiftLeft_eq,
    Nat.mod_eq_of_lt (by omega), Nat.or_comm, Nat.mul_comm, ← hor]
  ring

/-- A word is read as the number of its sign and magnitude. -/
theorem toInt_signed (w : UInt64) : (signed w).toInt = number w.toNat := by
  have hlt := w.toNat_lt
  have hsign : w &&& 1 = 1 ↔ w.toNat % 2 = 1 := by
    rw [← UInt64.toNat_inj, UInt64.toNat_and, ← Nat.and_one_is_mod]
    rfl
  have hmagnitude : (w >>> 1).toInt64.toInt = (w.toNat / 2 : Nat) := by
    have hhalf : (w >>> 1).toNat = w.toNat / 2 := by simp [Nat.shiftRight_eq_div_pow]
    have htop : 2 * (w >>> 1).toBitVec.toNat < 2 ^ 64 := by
      rw [UInt64.toNat_toBitVec, hhalf]
      omega
    rw [← hhalf, ← UInt64.toNat_toBitVec, ← BitVec.toInt_eq_toNat_of_lt htop]
    rfl
  rw [signed, number]
  by_cases negative : w.toNat % 2 = 1
  · rw [if_pos (hsign.mpr negative), if_neg (by omega), Int64.toInt_neg, hmagnitude,
      Int.bmod_eq_of_le (by omega) (by omega)]
    omega
  · rw [if_neg (fun h => negative (hsign.mp h)), if_pos (by omega), hmagnitude]

/-- The number of a run that fits is the number of its total. -/
theorem toInt_value {run : List UInt8} (h : Fits run) : (value run).toInt = number (total run) := by
  rw [value, toInt_signed, UInt64.toNat_ofNat_of_lt' h.total_lt]

/-! ## Reading digits -/

/-- The word holds the digits of an open number, and the next digit goes to the
shift. -/
structure Reading (opened : List UInt8) (word shift : UInt64) : Prop where
  continues : ∀ b ∈ opened, Continues b
  fits : Fits opened
  word : word.toNat = total opened
  shift : shift.toNat = 5 * opened.length

/-- No number is open. -/
theorem Reading.start : Reading [] 0 0 := ⟨by simp, ⟨by simp, by simp⟩, rfl, rfl⟩

theorem scan_of_not_digit {b : UInt8} (h : digit? b = none) (w s : UInt64) (bs : List UInt8) :
    scan w s (b :: bs) = .error (.invalidDigit b) := by
  simp only [scan, h]

namespace Reading

variable {opened : List UInt8} {w s d : UInt64} {b : UInt8}

/-- The reader refuses a digit if the run does not fit with it. -/
theorem overflows_iff (h : Reading opened w s) (hd : digit? b = some d) :
    Overflows s (d &&& 31) ↔ ¬ Fits (opened ++ [b]) := by
  have hshift := h.shift
  have hlength := h.fits.1
  rw [Overflows, fits_concat_iff, UInt64.lt_iff_toNat_lt, UInt64.lt_iff_toNat_lt,
    ← UInt64.toNat_inj, toNat_and_31_of_digit? hd]
  simp only [UInt64.reduceToNat]
  omega

/-- A digit with which the run fits is put above the digits before it. -/
theorem toNat_push (h : Reading opened w s) (hd : digit? b = some d)
    (fits : Fits (opened ++ [b])) :
    (w ||| (d &&& 31) <<< s).toNat = total (opened ++ [b]) := by
  have htotal := fits.total_lt
  have hopened := total_lt opened
  have hlength : opened.length ≤ 12 := by
    have := fits_concat_iff.mp fits
    omega
  rw [total_concat] at htotal ⊢
  rw [toNat_or_shiftLeft, h.word, h.shift, toNat_and_31_of_digit? hd]
  · have := h.shift
    omega
  · rwa [h.word, h.shift]
  · rwa [h.word, h.shift, toNat_and_31_of_digit? hd]

theorem scan_nil (h : Reading opened w s) :
    scan w s [] = if opened = [] then .ok [] else .error .unfinished := by
  have hshift : s = 0 ↔ opened = [] := by
    rw [← UInt64.toNat_inj, h.shift, ← List.length_eq_zero_iff]
    simp
  simp only [scan, hshift]

theorem scan_tooLarge (h : Reading opened w s) (hd : digit? b ≠ none)
    (large : ¬ Fits (opened ++ [b])) (bs : List UInt8) :
    scan w s (b :: bs) = .error .tooLarge := by
  obtain ⟨d, hd⟩ := Option.ne_none_iff_exists'.mp hd
  simp only [scan, hd, if_pos ((h.overflows_iff hd).mpr large)]

/-- A digit with the continuation bit is read as one more digit of the number. -/
theorem scan_more (h : Reading opened w s) (hb : Continues b) (fits : Fits (opened ++ [b])) :
    ∃ w' s', Reading (opened ++ [b]) w' s' ∧ ∀ bs, scan w s (b :: bs) = scan w' s' bs := by
  obtain ⟨d, hd, hhigh⟩ := hb
  have hcontinued := (and_32_ne_zero_iff (digitByte_of_digit? hd).1).mpr hhigh
  refine ⟨w ||| (d &&& 31) <<< s, s + 5, ⟨?_, fits, h.toNat_push hd fits, ?_⟩, fun bs => ?_⟩
  · rw [List.forall_mem_append, List.forall_mem_singleton]
    exact ⟨h.continues, d, hd, hhigh⟩
  · have hlength := h.fits.1
    rw [UInt64.toNat_add, h.shift, List.length_append, List.length_singleton]
    simp only [UInt64.reduceToNat]
    omega
  · rw [scan]
    simp only [Option.mem_def.mp hd, if_neg (fun large => (h.overflows_iff hd).mp large fits),
      if_pos hcontinued]

/-- A digit without the continuation bit ends its number. -/
theorem scan_last (h : Reading opened w s) (hb : Ends b) (fits : Fits (opened ++ [b]))
    (bs : List UInt8) :
    scan w s (b :: bs) = (scan 0 0 bs).map (value (opened ++ [b]) :: ·) := by
  obtain ⟨d, hd, hlow⟩ := hb
  have hended : ¬ d &&& 32 ≠ 0 := by
    rw [and_32_ne_zero_iff (digitByte_of_digit? hd).1]
    omega
  have hword : w ||| (d &&& 31) <<< s = UInt64.ofNat (total (opened ++ [b])) := by
    rw [← h.toNat_push hd fits, UInt64.ofNat_toNat]
  rw [scan]
  simp only [Option.mem_def.mp hd, if_neg (fun large => (h.overflows_iff hd).mp large fits),
    if_neg hended, hword]
  rfl

/-- The rest of a run is read as the number of the run. -/
theorem scan_run (h : Reading opened w s) {run : List UInt8} (hrun : IsRun run)
    (fits : Fits (opened ++ run)) (bs : List UInt8) :
    scan w s (run ++ bs) = (scan 0 0 bs).map (value (opened ++ run) :: ·) := by
  induction hrun generalizing opened w s with
  | last hb => exact h.scan_last hb fits bs
  | @more b run hb hrun ih =>
      rw [List.append_cons] at fits ⊢
      obtain ⟨w', s', hnext, hstep⟩ := h.scan_more hb fits.of_append
      rw [List.cons_append, hstep, ih hnext fits]

end Reading

end TypedStyles.Vlq
