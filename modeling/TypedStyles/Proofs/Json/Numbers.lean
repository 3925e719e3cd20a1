import TypedStyles.Proofs.Json.Reading

/-!
# Numbers that were written

A number is written as its digits, with an exponent behind them unless it is
plain.  What is read back is the number itself, if the plain spelling leaves no
power of ten out (`Reading.value?_print_number`).

The digits of a natural number are read by one lemma wherever they stand
(`Reading.value?_decimal`): at the beginning of a number, behind its minus sign,
and in its exponent.
-/

namespace TypedStyles

/-- A plain number has no power of ten, since its spelling shows none. -/
def Number.Spelled (n : Number) : Prop := n.plain = true → n.exponent = 0

namespace Json

/-! ## Digits -/

theorem isDigit_digitChar : ∀ d < 10, d.digitChar.isDigit = true := by decide

theorem toNat_digitChar : ∀ d < 10, d.digitChar.toNat - 48 = d := by decide

namespace NumberState

/-- The state behind the digits of a natural number. -/
def whole (negative : Bool) (m : Nat) : NumberState :=
  ⟨if m = 0 then .zero else .integer, negative, m, 0, false, 0⟩

/-- The state behind the digits of an exponent. -/
def powered (negative : Bool) (m : Nat) (small : Bool) (power : Nat) : NumberState :=
  ⟨.exponent, negative, m, 0, small, power⟩

theorem opened?_digitChar : ∀ d < 10, opened? d.digitChar = some (whole false d) := by decide

/-- Every digit opens a number. -/
theorem exists_opened?_of_isDigit {c : Char} (h : c.isDigit = true) : ∃ n, opened? c = some n := by
  rw [opened?, if_pos h]
  split
  next => exact ⟨_, rfl⟩
  next =>
    split
    next => exact ⟨_, rfl⟩
    next => exact ⟨_, rfl⟩

theorem ne_of_opened? {c d : Char} {n : NumberState} (h : opened? c = some n)
    (hd : opened? d = none) : c ≠ d := by
  rintro rfl
  rw [hd] at h
  cases h

theorem isSpace_of_opened? {c : Char} {n : NumberState} (h : opened? c = some n) :
    Reading.isSpace c = false := by
  simp [Reading.isSpace, ne_of_opened? (d := ' ') h rfl, ne_of_opened? (d := '\t') h rfl,
    ne_of_opened? (d := '\n') h rfl, ne_of_opened? (d := '\r') h rfl]

theorem step?_minus : ∀ d < 10, (⟨.minus, true, 0, 0, false, 0⟩ : NumberState).step? d.digitChar
    = some (whole true d) := by
  decide

theorem step?_whole (negative : Bool) {m d : Nat} (hm : 0 < m) (hd : d < 10) :
    (whole negative m).step? d.digitChar = some (whole negative (m * 10 + d)) := by
  have hphase : m ≠ 0 := by omega
  have hsum : m * 10 + d ≠ 0 := by omega
  rw [whole, whole, if_neg hphase, if_neg hsum]
  simp [step?, pushInteger, isDigit_digitChar d hd, toNat_digitChar d hd]

theorem step?_powered (negative : Bool) (m : Nat) (small : Bool) (power : Nat) {d : Nat}
    (hd : d < 10) :
    (powered negative m small power).step? d.digitChar
      = some (powered negative m small (power * 10 + d)) := by
  simp [powered, step?, pushPower, isDigit_digitChar d hd, toNat_digitChar d hd]

/-- The first digit of an exponent stands behind the mark or behind the sign. -/
theorem step?_mark {phase : NumberPhase} (hphase : phase = .mark ∨ phase = .sign)
    (negative : Bool) (m : Nat) (small : Bool) {d : Nat} (hd : d < 10) :
    (⟨phase, negative, m, 0, small, 0⟩ : NumberState).step? d.digitChar
      = some (powered negative m small d) := by
  have hsign : ∀ d < 10, d.digitChar ≠ '+' ∧ d.digitChar ≠ '-' := by decide
  rcases hphase with rfl | rfl
  · simp [powered, step?, pushPower, isDigit_digitChar d hd, toNat_digitChar d hd, hsign d hd]
  · simp [powered, step?, pushPower, isDigit_digitChar d hd, toNat_digitChar d hd]

theorem number?_whole (negative : Bool) (m : Nat) :
    (whole negative m).number? = some ⟨negative, m, 0, true⟩ := by
  rw [whole]
  split
  next => rfl
  next => rfl

theorem number?_powered (negative : Bool) (m : Nat) (e : Int) :
    (powered negative m (decide (e < 0)) e.natAbs).number? = some ⟨negative, m, e, false⟩ := by
  have hscale : (powered negative m (decide (e < 0)) e.natAbs).scale = e := by
    rw [powered, scale]
    dsimp only
    by_cases he : e < 0
    · rw [decide_eq_true he, if_pos rfl]
      omega
    · rw [decide_eq_false he, if_neg Bool.false_ne_true]
      omega
  rw [number?, hscale]
  rfl

end NumberState

/-! ## Reading numbers -/

namespace Reading

variable {frames : List Frame} {t : List Char}

/-- A character that opens a number opens nothing else. -/
theorem step?_of_opened? {c : Char} {n : NumberState} (h : NumberState.opened? c = some n) :
    (⟨frames, .value⟩ : Reading).step? c = some ⟨frames, .number n⟩ := by
  have hne : ∀ d, NumberState.opened? d = none → c ≠ d := fun _ => NumberState.ne_of_opened? h
  simp [step?, between?, openValue?, NumberState.isSpace_of_opened? h, hne '[' rfl,
    hne '\x7b' rfl, hne '"' rfl, hne 't' rfl, hne 'f' rfl, hne 'n' rfl, h]

theorem step?_of_number {n next : NumberState} {c : Char} (h : n.step? c = some next) :
    (⟨frames, .number n⟩ : Reading).step? c = some ⟨frames, .number next⟩ := by
  simp [step?, h]

theorem step?_of_ends (n : NumberState) {c : Char} (h : Ends (c :: t)) : n.step? c = none := by
  obtain ⟨phase, negative, digits, places, small, power⟩ := n
  rcases h with rfl | rfl | rfl
  · cases phase with
    | _ => rfl
  · cases phase with
    | _ => rfl
  · cases phase with
    | _ => rfl

/-- A number ends where nothing continues it. -/
theorem value?_number {n : NumberState} {v : Number} (h : n.number? = some v) (ht : Ends t) :
    (⟨frames, .number n⟩ : Reading).value? t = (deliver (.number v) frames).value? t := by
  cases t with
  | nil =>
      cases frames with
      | nil => exact congrArg (Option.map Json.number) h
      | cons frame frames =>
          -- The text ends inside a container, so it is refused on both sides.
          cases frame with
          | array items =>
              cases frames with
              | _ => rfl
          | object members key =>
              cases frames with
              | _ => rfl
  | cons c t =>
      have hstep : (⟨frames, .number n⟩ : Reading).step? c
          = n.number?.bind fun v => (deliver (.number v) frames).between? c := by
        simp only [step?, step?_of_ends n ht]
      apply value?_congr
      rw [hstep, h, step?_deliver]
      rfl

/-- The digits of a natural number are read in turn, where `after` is what holds the number so
far. -/
theorem value?_decimal {r : Reading} (after : Nat → Reading)
    (hfirst : ∀ d < 10, r.step? d.digitChar = some (after d))
    (hnext : ∀ m d, 0 < m → d < 10 → (after m).step? d.digitChar = some (after (m * 10 + d)))
    (m : Nat) (t : List Char) : r.value? (decimal m ++ t) = (after m).value? t := by
  induction m using Nat.strongRecOn generalizing t with
  | ind m ih =>
      by_cases hm : m < 10
      · rw [decimal, Nat.toDigits_of_lt_base hm]
        exact value?_cons (hfirst m hm) t
      · have hsplit : m / 10 * 10 + m % 10 = m := by omega
        have hstep := hnext (m / 10) (m % 10) (by omega) (by omega)
        rw [hsplit] at hstep
        rw [decimal, Nat.toDigits_of_base_le (by decide) (by omega), List.append_assoc,
          ← decimal, ih (m / 10) (by omega)]
        exact value?_cons hstep t

/-- The digits of a number are read, with or without a minus sign before them. -/
theorem value?_digits (negative : Bool) (m : Nat) (t : List Char) :
    (⟨frames, .value⟩ : Reading).value? ((if negative then ['-'] else []) ++ (decimal m ++ t))
      = (⟨frames, .number (.whole negative m)⟩ : Reading).value? t := by
  have hnext : ∀ m d, 0 < m → d < 10 →
      (⟨frames, .number (.whole negative m)⟩ : Reading).step? d.digitChar
        = some ⟨frames, .number (.whole negative (m * 10 + d))⟩ :=
    fun m d hm hd => step?_of_number (NumberState.step?_whole negative hm hd)
  cases negative with
  | false =>
      exact value?_decimal (fun m => ⟨frames, .number (.whole false m)⟩)
        (fun d hd => step?_of_opened? (NumberState.opened?_digitChar d hd)) hnext m t
  | true =>
      have hminus : (⟨frames, .value⟩ : Reading).step? '-'
          = some ⟨frames, .number ⟨.minus, true, 0, 0, false, 0⟩⟩ := rfl
      refine (value?_cons hminus _).trans ?_
      exact value?_decimal (fun m => ⟨frames, .number (.whole true m)⟩)
        (fun d hd => step?_of_number (NumberState.step?_minus d hd)) hnext m t

/-- The exponent of a number is read with its mark and its sign. -/
theorem value?_exponent (negative : Bool) (m : Nat) (e : Int) (t : List Char) :
    (⟨frames, .number (.whole negative m)⟩ : Reading).value?
        ('e' :: ((if e < 0 then ['-'] else []) ++ (decimal e.natAbs ++ t)))
      = (⟨frames, .number (.powered negative m (decide (e < 0)) e.natAbs)⟩ : Reading).value? t := by
  have hmark : (NumberState.whole negative m).step? 'e'
      = some ⟨.mark, negative, m, 0, false, 0⟩ := by
    rw [NumberState.whole]
    split
    next => rfl
    next => rfl
  have hdigits : ∀ phase small, phase = .mark ∨ phase = .sign →
      (⟨frames, .number ⟨phase, negative, m, 0, small, 0⟩⟩ : Reading).value?
          (decimal e.natAbs ++ t)
        = (⟨frames, .number (.powered negative m small e.natAbs)⟩ : Reading).value? t := by
    intro phase small hphase
    exact value?_decimal (fun power => ⟨frames, .number (.powered negative m small power)⟩)
      (fun d hd => step?_of_number (NumberState.step?_mark hphase negative m small hd))
      (fun power d _ hd => step?_of_number (NumberState.step?_powered negative m small power hd))
      e.natAbs t
  rw [value?_cons (step?_of_number hmark)]
  by_cases he : e < 0
  · have hsign : (⟨.mark, negative, m, 0, false, 0⟩ : NumberState).step? '-'
        = some ⟨.sign, negative, m, 0, true, 0⟩ := rfl
    rw [if_pos he, List.singleton_append, value?_cons (step?_of_number hsign), decide_eq_true he]
    exact hdigits .sign true (Or.inr rfl)
  · rw [if_neg he, List.nil_append, decide_eq_false he]
    exact hdigits .mark false (Or.inl rfl)

theorem value?_print_number {n : Number} (hn : n.Spelled) (ht : Ends t) :
    (⟨frames, .value⟩ : Reading).value? (n.print ++ t) = (deliver (.number n) frames).value? t := by
  obtain ⟨negative, m, e, plain⟩ := n
  cases plain with
  | true =>
      obtain rfl : e = 0 := hn rfl
      rw [← value?_number (NumberState.number?_whole negative m) ht, ← value?_digits]
      simp [Number.print]
  | false =>
      rw [← value?_number (NumberState.number?_powered negative m e) ht, ← value?_exponent,
        ← value?_digits]
      simp [Number.print]

end Reading

end Json

end TypedStyles
