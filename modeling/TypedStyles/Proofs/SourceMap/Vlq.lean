import TypedStyles.Proofs.SourceMap.Runs

/-!
# Reading numbers back

A written number reads back, whatever digits stand after it
(`decode_encode_append`).  Its digits are a run whose total is the number with
its sign (`isRun_written`, `total_written`).  The last group of the run is not
empty unless it is the only one (`written_eq_iff`), so the run is no longer than
the word needs and fits in it (`fits_written`).

The reader gives back `signed (unsigned v)`.  That is `v` for every word but
the smallest (`signed_unsigned`), which is read as zero.
-/

namespace TypedStyles.Vlq

/-! ## Groups and their digits -/

theorem toNat_group_more (w : UInt64) : (w &&& 31 ||| 32).toNat = w.toNat % 32 + 32 := by
  have hlow : w.toNat % 32 < 2 ^ 5 := Nat.mod_lt _ (by omega)
  have hor := Nat.two_pow_add_eq_or_of_lt hlow 1
  rw [UInt64.toNat_or, toNat_and_31, Nat.or_comm]
  exact hor.symm.trans (Nat.add_comm _ _)

theorem shiftRight_five_eq_zero_iff {w : UInt64} : w >>> 5 = 0 ↔ w.toNat < 32 := by
  rw [← UInt64.toNat_inj, toNat_shiftRight_five]
  exact Nat.div_eq_zero_iff_lt (by omega)

/-- A group and its continuation bit fit in six bits. -/
theorem lt_of_mem_groups (w : UInt64) : ∀ g ∈ groups w, g.toNat < 64 := by
  induction w using groups.induct with
  | case1 w small =>
      intro g hg
      rw [groups, if_pos small, List.mem_singleton] at hg
      rw [hg, toNat_and_31]
      omega
  | case2 w large ih =>
      intro g hg
      rw [groups, if_neg large] at hg
      rcases List.mem_cons.mp hg with rfl | hg
      · rw [toNat_group_more]
        omega
      · exact ih g hg

theorem groups_ne_nil (w : UInt64) : groups w ≠ [] := by
  rw [groups]
  split
  · simp
  · simp

theorem encode_ne_nil (v : Int64) : encode v ≠ [] := by
  simp [encode, groups_ne_nil]

theorem exists_digit_of_mem_encode {v : Int64} {c : Char} (h : c ∈ encode v) :
    ∃ n < 64, c = Base64.digit n := by
  obtain ⟨g, hg, rfl⟩ := List.mem_map.mp h
  exact ⟨g.toNat, lt_of_mem_groups _ g hg, rfl⟩

theorem not_mem_encode {c : Char} (h : Base64.value? c = none) (v : Int64) : c ∉ encode v := by
  intro hc
  obtain ⟨n, hn, rfl⟩ := exists_digit_of_mem_encode hc
  rw [Base64.value?_digit n hn] at h
  cases h

/-! ## The run of a word -/

/-- The bytes of the digits of a word. -/
def written (w : UInt64) : List UInt8 := (groups w).map fun g => digitByte g.toNat

theorem utf8_map_digit {gs : List UInt64} (h : ∀ g ∈ gs, g.toNat < 64) :
    utf8 (gs.map fun g => Base64.digit g.toNat) = gs.map fun g => digitByte g.toNat := by
  induction gs with
  | nil => rfl
  | cons g gs ih =>
      obtain ⟨hg, hgs⟩ := List.forall_mem_cons.mp h
      rw [List.map_cons, List.map_cons, utf8, List.flatMap_cons, utf8EncodeChar_digit hg, ← ih hgs]
      rfl

theorem utf8_encode (v : Int64) : utf8 (encode v) = written (unsigned v) :=
  utf8_map_digit (lt_of_mem_groups _)

theorem written_of_lt {w : UInt64} (h : w.toNat < 32) : written w = [digitByte w.toNat] := by
  rw [written, groups, if_pos (shiftRight_five_eq_zero_iff.mpr h), List.map_singleton,
    toNat_and_31, Nat.mod_eq_of_lt h]

theorem written_of_le {w : UInt64} (h : 32 ≤ w.toNat) :
    written w = digitByte (w.toNat % 32 + 32) :: written (w >>> 5) := by
  have hmore : ¬ w >>> 5 = 0 := by
    rw [shiftRight_five_eq_zero_iff]
    omega
  rw [written, groups, if_neg hmore, List.map_cons, toNat_group_more]
  rfl

theorem isRun_written (w : UInt64) : IsRun (written w) := by
  induction w using groups.induct with
  | case1 w small =>
      have hlt := shiftRight_five_eq_zero_iff.mp small
      rw [written_of_lt hlt]
      exact .last (ends_digitByte hlt)
  | case2 w large ih =>
      rw [shiftRight_five_eq_zero_iff] at large
      rw [written_of_le (by omega)]
      exact .more (continues_digitByte (by omega) (by omega)) ih

theorem total_written (w : UInt64) : total (written w) = w.toNat := by
  induction w using groups.induct with
  | case1 w small =>
      have hlt := shiftRight_five_eq_zero_iff.mp small
      rw [written_of_lt hlt, total_singleton, bits_digitByte (by omega), Nat.mod_eq_of_lt hlt]
  | case2 w large ih =>
      rw [shiftRight_five_eq_zero_iff] at large
      rw [written_of_le (by omega), total_cons, bits_digitByte (by omega), ih,
        toNat_shiftRight_five]
      omega

/-- No run of two digits or more ends in an empty group. -/
def Trimmed (run : List UInt8) : Prop := 2 ≤ run.length → run.getLast? ≠ some 0x41

/-- A run without bits ends in an empty group. -/
theorem IsRun.getLast?_of_total_eq_zero {run : List UInt8} (h : IsRun run) (hzero : total run = 0) :
    run.getLast? = some 0x41 := by
  induction h with
  | @last b hb =>
      rw [total_singleton] at hzero
      rw [List.getLast?_singleton, ← eq_of_ends hb, hzero]
      rfl
  | @more b run hb hrun ih =>
      rw [total_cons] at hzero
      rw [List.getLast?_cons_of_ne_nil hrun.ne_nil]
      exact ih (by omega)

/-- Where the total goes on above the first group, the run is written with it. -/
theorem written_of_total_cons {w : UInt64} {b : UInt8} {run : List UInt8} (hb : Continues b)
    (hw : w.toNat = total (b :: run)) (hrun : total run ≠ 0) :
    written w = b :: written (w >>> 5) ∧ (w >>> 5).toNat = total run := by
  have hlow := bits_lt b
  rw [total_cons] at hw
  have hmod : w.toNat % 32 = bits b := by omega
  rw [written_of_le (by omega), toNat_shiftRight_five, hmod, eq_of_continues hb]
  exact ⟨rfl, by omega⟩

/-- Where the total ends in the first group, that group alone is written. -/
theorem written_of_total_cons_zero {w : UInt64} {b : UInt8} {run : List UInt8}
    (hw : w.toNat = total (b :: run)) (hrun : total run = 0) :
    written w = [digitByte (bits b)] := by
  have hlow := bits_lt b
  rw [total_cons, hrun] at hw
  have hbits : w.toNat = bits b := by omega
  rw [written_of_lt (by omega), hbits]

/-- No run of a word is shorter than the written one. -/
theorem IsRun.length_written_le {run : List UInt8} (h : IsRun run) {w : UInt64}
    (hw : w.toNat = total run) : (written w).length ≤ run.length := by
  induction h generalizing w with
  | @last b hb =>
      rw [total_singleton] at hw
      rw [written_of_lt (hw ▸ bits_lt b)]
      simp
  | @more b run hb hrun ih =>
      by_cases hzero : total run = 0
      · rw [written_of_total_cons_zero hw hzero]
        simp
      · obtain ⟨hwritten, hrest⟩ := written_of_total_cons hb hw hzero
        rw [hwritten, List.length_cons, List.length_cons]
        exact Nat.succ_le_succ (ih hrest)

/-- A run is the written one of its word if it is trimmed. -/
theorem IsRun.written_eq_iff {run : List UInt8} (h : IsRun run) {w : UInt64}
    (hw : w.toNat = total run) : written w = run ↔ Trimmed run := by
  -- The total falls by one group with each digit.  Where nothing is left of it before the run
  -- ends, writing stops and the run goes on with empty groups.
  induction h generalizing w with
  | @last b hb =>
      rw [total_singleton] at hw
      rw [written_of_lt (hw ▸ bits_lt b), hw, eq_of_ends hb]
      simp [Trimmed]
  | @more b run hb hrun ih =>
      have hlong : 2 ≤ (b :: run).length :=
        Nat.succ_le_succ (List.length_pos_iff.mpr hrun.ne_nil)
      have htrimmed : Trimmed (b :: run) ↔ run.getLast? ≠ some 0x41 := by
        rw [Trimmed, List.getLast?_cons_of_ne_nil hrun.ne_nil]
        exact ⟨fun h => h hlong, fun h _ => h⟩
      rw [htrimmed]
      by_cases hzero : total run = 0
      · have hlast := hrun.getLast?_of_total_eq_zero hzero
        rw [written_of_total_cons_zero hw hzero]
        simp [hlast, hrun.ne_nil.symm]
      · obtain ⟨hwritten, hrest⟩ := written_of_total_cons hb hw hzero
        rw [hwritten, List.cons_inj_right, ih hrest, Trimmed]
        refine ⟨fun h => ?_, fun h _ => h⟩
        cases hrun with
        | @last c hc =>
            rintro hlast
            rw [List.getLast?_singleton] at hlast
            apply hzero
            rw [Option.some.inj hlast]
            rfl
        | more hc hmore => exact h (Nat.succ_le_succ (List.length_pos_iff.mpr hmore.ne_nil))

/-- A trimmed run fits in a word if its total does, since its last group counts. -/
theorem IsRun.fits {run : List UInt8} (h : IsRun run) (htrimmed : Trimmed run)
    (htotal : total run < 2 ^ 64) : Fits run := by
  obtain ⟨opened, b, rfl, -, hb⟩ := h.exists_eq_concat
  rw [fits_concat_iff]
  by_cases hsingle : opened = []
  · simp [hsingle]
  · have hlong : 2 ≤ (opened ++ [b]).length := by
      have := List.length_pos_iff.mpr hsingle
      rw [List.length_append, List.length_singleton]
      omega
    have hpos : 1 ≤ bits b := by
      by_contra hzero
      apply htrimmed hlong
      rw [List.getLast?_concat, ← eq_of_ends hb, Nat.lt_one_iff.mp (Nat.lt_of_not_le hzero)]
      rfl
    rw [total_concat] at htotal
    have hpow : 1 * 2 ^ (5 * opened.length) ≤ bits b * 2 ^ (5 * opened.length) :=
      Nat.mul_le_mul_right _ hpos
    have hlength : 5 * opened.length < 64 := by
      apply (Nat.pow_lt_pow_iff_right (a := 2) (by omega)).mp
      omega
    by_cases hfull : opened.length = 12
    · rw [hfull] at htotal
      omega
    · omega

theorem fits_written (w : UInt64) : Fits (written w) := by
  have hrun := isRun_written w
  have htotal := total_written w
  exact hrun.fits ((hrun.written_eq_iff htotal.symm).mp rfl) (htotal ▸ w.toNat_lt)

/-! ## Signs -/

theorem toNat_toUInt64 (v : Int64) :
    (v.toUInt64.toNat : Int) = if v.toInt < 0 then v.toInt + 2 ^ 64 else v.toInt := by
  have hcond := v.toBitVec.toInt_eq_toNat_cond
  have hsigned : v.toBitVec.toInt = v.toInt := rfl
  have hunsigned : v.toBitVec.toNat = v.toUInt64.toNat := rfl
  have hlt := v.toUInt64.toNat_lt
  rw [hsigned, hunsigned] at hcond
  split at hcond
  · rw [if_neg (by omega), hcond]
  · rw [if_pos (by omega), hcond]
    omega

/-- The magnitude is doubled within 64 bits, and the sign is in the lowest bit. -/
theorem toNat_unsigned (v : Int64) :
    (unsigned v).toNat = 2 * v.toInt.natAbs % 2 ^ 64 + if v.toInt < 0 then 1 else 0 := by
  have hwide := toNat_toUInt64 v
  have hzero : (0 : Int64).toInt = 0 := rfl
  rw [unsigned]
  by_cases negative : v.toInt < 0
  · have hmagnitude : (-v).toUInt64.toNat = v.toInt.natAbs := by
      have hlow := v.le_toInt
      have hsize : UInt64.size = 2 ^ 64 := rfl
      rw [if_pos negative] at hwide
      rw [Int64.toUInt64_neg, UInt64.toNat_neg, hsize]
      omega
    -- The shift leaves the lowest bit free for the sign.
    have heven : v.toInt.natAbs * 2 ^ 1 % 2 ^ 64 = 2 ^ 1 * (v.toInt.natAbs % 2 ^ 63) := by omega
    have hor := Nat.two_pow_add_eq_or_of_lt (i := 1) (b := 1) (by omega) (v.toInt.natAbs % 2 ^ 63)
    rw [if_pos (by rwa [Int64.lt_iff_toInt_lt, hzero]), if_pos negative, UInt64.toNat_or,
      UInt64.toNat_shiftLeft, hmagnitude, Nat.shiftLeft_eq]
    simp only [UInt64.reduceToNat, Nat.reduceMod]
    rw [heven, ← hor]
    omega
  · rw [if_neg negative] at hwide
    rw [if_neg (by rwa [Int64.lt_iff_toInt_lt, hzero]), if_neg negative, UInt64.toNat_shiftLeft,
      Nat.shiftLeft_eq]
    simp only [UInt64.reduceToNat, Nat.reduceMod]
    omega

/-- The sign and the magnitude of a word make the word again.  The magnitude of
the smallest word has no room. -/
theorem signed_unsigned {v : Int64} (h : v ≠ Int64.minValue) : signed (unsigned v) = v := by
  have hlow : -0x7fffffffffffffff ≤ v.toInt := by
    have hne : v.toInt ≠ Int64.minValue.toInt := fun e => h (Int64.toInt_inj.mp e)
    have hmin : Int64.minValue.toInt = -0x8000000000000000 := rfl
    have := v.le_toInt
    omega
  have hhigh := v.toInt_lt
  have hword := toNat_unsigned v
  apply Int64.toInt_inj.mp
  rw [toInt_signed, number]
  by_cases negative : v.toInt < 0
  · rw [if_pos negative] at hword
    rw [if_neg (by omega)]
    omega
  · rw [if_neg negative] at hword
    rw [if_pos (by omega)]
    omega

/-! ## Reading numbers -/

/-- A written number is read back, and reading goes on after it. -/
theorem decode_encode_append (v : Int64) (cs : List Char) :
    decode (encode v ++ cs) = (decode cs).map (signed (unsigned v) :: ·) := by
  have hsplit : utf8 (encode v ++ cs) = written (unsigned v) ++ utf8 cs := by
    rw [← utf8_encode]
    exact List.flatMap_append
  have hvalue : value (written (unsigned v)) = signed (unsigned v) := by
    rw [value, total_written, UInt64.ofNat_toNat]
  rw [decode, decode, hsplit, Reading.start.scan_run (isRun_written _) (fits_written _),
    List.nil_append, hvalue]

/-- Several numbers in a row are read back. -/
theorem decode_encodeAll (vs : List Int64) :
    decode (encodeAll vs) = .ok (vs.map fun v => signed (unsigned v)) := by
  induction vs with
  | nil => rfl
  | cons v vs ih =>
      have h : encodeAll (v :: vs) = encode v ++ encodeAll vs := rfl
      rw [h, decode_encode_append, ih]
      rfl

theorem decode_encodeAll_of_not_mem {vs : List Int64} (h : Int64.minValue ∉ vs) :
    decode (encodeAll vs) = .ok vs := by
  have hself : ∀ v ∈ vs, signed (unsigned v) = v := fun v hv =>
    signed_unsigned fun hmin => h (hmin ▸ hv)
  rw [decode_encodeAll, List.map_congr_left hself, List.map_id']

/-- **Reading undoes writing.**  Numbers that are written in a row are read back, but for the
smallest word, which is read as zero. -/
theorem decode_encodeAll_words (vs : List Int64) :
    decode (encodeAll vs) = .ok (vs.map fun v => if v = Int64.minValue then 0 else v) ∧
      (Int64.minValue ∉ vs → decode (encodeAll vs) = .ok vs) := by
  have hword : ∀ v, signed (unsigned v) = if v = Int64.minValue then 0 else v := by
    intro v
    by_cases hmin : v = Int64.minValue
    · rw [if_pos hmin, hmin]
      rfl
    · rw [if_neg hmin, signed_unsigned hmin]
  refine ⟨?_, decode_encodeAll_of_not_mem⟩
  rw [decode_encodeAll]
  simp only [hword]

/-- Both ends of the words that are read back. -/
theorem decode_encodeAll_words_extremes :
    Int64.minValue ∉ [Int64.maxValue, -Int64.maxValue, 0, -1] ∧
      decode (encodeAll [Int64.maxValue, -Int64.maxValue, 0, -1])
        = .ok [Int64.maxValue, -Int64.maxValue, 0, -1] := by
  have habsent : Int64.minValue ∉ [Int64.maxValue, -Int64.maxValue, 0, -1] := by decide
  exact ⟨habsent, (decode_encodeAll_words _).2 habsent⟩

end TypedStyles.Vlq
