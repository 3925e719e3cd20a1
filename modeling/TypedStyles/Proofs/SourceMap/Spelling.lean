import Mathlib.Algebra.Order.BigOperators.Group.List
import TypedStyles.Proofs.SourceMap.Grammar
import TypedStyles.Proofs.SourceMap.Vlq

/-!
# Spellings of numbers

A number can be spelled by many runs: it may be padded with empty groups, and
zero may have a sign.  A run is `Canonical` if it is spelled in neither way.  The
run that is written for the number of a run is no longer than that run, and it is
that run exactly if that run is canonical (`IsRun.respelled_eq_iff`).

A segment is cut into runs in one way only (`Divides.unique`), since no run is
the beginning of another one.  So what holds of a run holds of a segment: among
the segments of some numbers the written one is the canonical one, and no other
is shorter.
-/

namespace TypedStyles.Vlq

/-! ## Bytes and characters -/

theorem utf8_injective {s t : List Char} (h : utf8 s = utf8 t) : s = t := by
  have hread := congrArg ofUtf8? h
  rw [ofUtf8?_utf8, ofUtf8?_utf8] at hread
  exact Option.some.inj hread

/-- A character of more than one byte has a byte outside of ASCII. -/
theorem length_utf8EncodeChar_of_ascii {c : Char}
    (h : ∀ b ∈ String.utf8EncodeChar c, b.toNat < 128) : (String.utf8EncodeChar c).length = 1 := by
  by_contra hlong
  have hfirst : ∃ b ∈ String.utf8EncodeChar c, 128 ≤ b.toNat := by
    simp only [String.utf8EncodeChar] at hlong ⊢
    split_ifs at hlong ⊢
    · exact absurd rfl hlong
    all_goals
      refine ⟨_, List.mem_cons_self, ?_⟩
      rw [UInt8.toNat_ofNat']
      omega
  obtain ⟨b, hb, hhigh⟩ := hfirst
  have := h b hb
  omega

theorem length_utf8_of_ascii {text : List Char} (h : ∀ b ∈ utf8 text, b.toNat < 128) :
    (utf8 text).length = text.length := by
  induction text with
  | nil => rfl
  | cons c text ih =>
      rw [utf8, List.flatMap_cons, List.forall_mem_append] at h
      rw [utf8, List.flatMap_cons, List.length_append, length_utf8EncodeChar_of_ascii h.1,
        List.length_cons, Nat.add_comm]
      exact congrArg (· + 1) (ih h.2)

theorem toNat_lt_of_digit {b : UInt8} (h : digit? b ≠ none) : b.toNat < 128 := by
  obtain ⟨d, hd⟩ := Option.ne_none_iff_exists'.mp h
  obtain ⟨hlt, rfl⟩ := digitByte_of_digit? hd
  have all : ∀ n : Fin 64, (digitByte n).toNat < 128 := by decide +kernel
  exact all ⟨d.toNat, hlt⟩

/-! ## Runs in a row -/

theorem IsRun.digit {run : List UInt8} (h : IsRun run) : ∀ b ∈ run, digit? b ≠ none := by
  induction h with
  | last hb => simpa using digit?_ne_none_of_ends hb
  | more hb _ ih => exact List.forall_mem_cons.mpr ⟨digit?_ne_none_of_continues hb, ih⟩

/-- A text that begins with a run tells the run and the rest. -/
theorem IsRun.append_inj {run run' rest rest' : List UInt8} (h : IsRun run) (h' : IsRun run')
    (heq : run ++ rest = run' ++ rest') : run = run' ∧ rest = rest' := by
  induction h generalizing run' with
  | @last b hb =>
      cases h' with
      | last hc =>
          obtain ⟨rfl, rfl⟩ := List.cons.inj heq
          exact ⟨rfl, rfl⟩
      | more hc _ =>
          obtain ⟨rfl, -⟩ := List.cons.inj heq
          exact absurd hb (not_ends_of_continues hc)
  | @more b run hb hrun ih =>
      cases h' with
      | last hc =>
          obtain ⟨rfl, -⟩ := List.cons.inj heq
          exact absurd hc (not_ends_of_continues hb)
      | more hc hrun' =>
          obtain ⟨rfl, htail⟩ := List.cons.inj heq
          obtain ⟨rfl, rfl⟩ := ih hrun' htail
          exact ⟨rfl, rfl⟩

theorem flatten_inj {runs runs' : List (List UInt8)} (h : ∀ run ∈ runs, IsRun run)
    (h' : ∀ run ∈ runs', IsRun run) (heq : runs.flatten = runs'.flatten) : runs = runs' := by
  induction runs generalizing runs' with
  | nil =>
      cases runs' with
      | nil => rfl
      | cons run' runs' =>
          have hnil := List.append_eq_nil_iff.mp heq.symm
          exact absurd hnil.1 (h' run' List.mem_cons_self).ne_nil
  | cons run runs ih =>
      obtain ⟨hrun, hruns⟩ := List.forall_mem_cons.mp h
      cases runs' with
      | nil => exact absurd (List.append_eq_nil_iff.mp heq).1 hrun.ne_nil
      | cons run' runs' =>
          obtain ⟨hrun', hruns'⟩ := List.forall_mem_cons.mp h'
          obtain ⟨rfl, htail⟩ := hrun.append_inj hrun' heq
          rw [ih hruns hruns' htail]

/-- Bytes are cut into runs in one way only. -/
theorem Divides.unique {bytes : List UInt8} {runs runs' : List (List UInt8)}
    (h : Divides bytes runs) (h' : Divides bytes runs') : runs = runs' :=
  flatten_inj h.isRun h'.isRun (h.flatten.symm.trans h'.flatten)

/-- A segment that is cut into runs has one character for each digit. -/
theorem Divides.length_eq {text : List Char} {runs : List (List UInt8)}
    (h : Divides (utf8 text) runs) : text.length = (runs.map List.length).sum := by
  have hascii : ∀ b ∈ utf8 text, b.toNat < 128 := by
    intro b hb
    rw [h.flatten] at hb
    obtain ⟨run, hrun, hb⟩ := List.mem_flatten.mp hb
    exact toNat_lt_of_digit ((h.isRun run hrun).digit b hb)
  rw [← length_utf8_of_ascii hascii, h.flatten, List.length_flatten]

/-! ## Canonical runs -/

/-- The run is spelled as it is written. -/
structure Canonical (run : List UInt8) : Prop where
  /-- It is not padded with empty groups. -/
  trimmed : Trimmed run
  /-- It is not a zero with a sign. -/
  total_ne_one : total run ≠ 1

/-- The run that is written for the number of a run. -/
def respelled (run : List UInt8) : List UInt8 := written (unsigned (value run))

/-- Reading loses nothing of a run but the sign of zero. -/
theorem toNat_unsigned_value {run : List UInt8} (h : Fits run) :
    (unsigned (value run)).toNat = if total run = 1 then 0 else total run := by
  have htotal := h.total_lt
  rw [toNat_unsigned, toInt_value h, number]
  split_ifs
  all_goals omega

theorem IsRun.length_respelled_le {run : List UInt8} (h : IsRun run) (fits : Fits run) :
    (respelled run).length ≤ run.length := by
  have hword := toNat_unsigned_value fits
  by_cases hzero : total run = 1
  · rw [if_pos hzero] at hword
    rw [respelled, written_of_lt (by omega)]
    exact List.length_pos_iff.mpr h.ne_nil
  · rw [if_neg hzero] at hword
    exact h.length_written_le hword

/-- A run is written for its own number exactly if it is canonical. -/
theorem IsRun.respelled_eq_iff {run : List UInt8} (h : IsRun run) (fits : Fits run) :
    respelled run = run ↔ Canonical run := by
  have hword := toNat_unsigned_value fits
  by_cases hzero : total run = 1
  · rw [if_pos hzero] at hword
    refine ⟨fun heq => ?_, fun hcanonical => absurd hzero hcanonical.total_ne_one⟩
    have htotal := total_written (unsigned (value run))
    rw [← respelled, heq, hzero, hword] at htotal
    cases htotal
  · rw [if_neg hzero] at hword
    rw [respelled, h.written_eq_iff hword]
    exact ⟨fun htrimmed => ⟨htrimmed, hzero⟩, fun hcanonical => hcanonical.trimmed⟩

/-! ## Segments -/

theorem utf8_encodeAll (vs : List Int64) :
    utf8 (encodeAll vs) = (vs.map fun v => written (unsigned v)).flatten := by
  induction vs with
  | nil => rfl
  | cons v vs ih =>
      have happend : utf8 (encodeAll (v :: vs)) = utf8 (encode v) ++ utf8 (encodeAll vs) :=
        List.flatMap_append
      rw [happend, ih, utf8_encode]
      rfl

theorem divides_encodeAll (runs : List (List UInt8)) :
    Divides (utf8 (encodeAll (runs.map value))) (runs.map respelled) := by
  refine ⟨?_, fun run' hrun' => ?_⟩
  · rw [utf8_encodeAll, List.map_map]
    rfl
  · obtain ⟨run, -, rfl⟩ := List.mem_map.mp hrun'
    exact isRun_written _

theorem length_encodeAll_le {segment : List Char} {runs : List (List UInt8)}
    (h : Divides (utf8 segment) runs) (fits : ∀ run ∈ runs, Fits run) :
    (encodeAll (runs.map value)).length ≤ segment.length := by
  rw [h.length_eq, (divides_encodeAll runs).length_eq, List.map_map]
  exact List.sum_le_sum fun run hrun => (h.isRun run hrun).length_respelled_le (fits run hrun)

theorem encodeAll_eq_iff {segment : List Char} {runs : List (List UInt8)}
    (h : Divides (utf8 segment) runs) (fits : ∀ run ∈ runs, Fits run) :
    encodeAll (runs.map value) = segment ↔ ∀ run ∈ runs, Canonical run := by
  have hwritten := divides_encodeAll runs
  have hruns : encodeAll (runs.map value) = segment ↔ runs.map respelled = runs := by
    constructor
    · intro heq
      rw [heq] at hwritten
      exact hwritten.unique h
    · intro heq
      apply utf8_injective
      rw [hwritten.flatten, heq, h.flatten]
  rw [hruns]
  constructor
  · intro heq run hrun
    have hself := List.map_inj_left.mp (heq.trans (List.map_id runs).symm) run hrun
    exact ((h.isRun run hrun).respelled_eq_iff (fits run hrun)).mp hself
  · intro hcanonical
    refine (List.map_congr_left fun run hrun => ?_).trans (List.map_id runs)
    exact ((h.isRun run hrun).respelled_eq_iff (fits run hrun)).mpr (hcanonical run hrun)

theorem decode_encodeAll_value {runs : List (List UInt8)} (fits : ∀ run ∈ runs, Fits run) :
    decode (encodeAll (runs.map value)) = .ok (runs.map value) := by
  apply decode_encodeAll_of_not_mem
  intro hmin
  obtain ⟨run, hrun, hvalue⟩ := List.mem_map.mp hmin
  have hbounds := number_bounds (fits run hrun).total_lt
  rw [← toInt_value (fits run hrun), hvalue] at hbounds
  exact absurd hbounds.1 (by decide)

/-- **The written spelling is the canonical one.**  Numbers that are read from a segment are read
again from what is written for them.  That has no more characters than the segment, and it is the
segment exactly if every run of the segment is canonical.  So of all segments of some numbers none
is shorter than the written one. -/
theorem encodeAll_canonical {segment : List Char} {vs : List Int64}
    (h : decode segment = .ok vs) :
    decode (encodeAll vs) = .ok vs ∧ (encodeAll vs).length ≤ segment.length ∧
      (∃ runs, Divides (utf8 segment) runs ∧
        (∀ runs', Divides (utf8 segment) runs' → runs' = runs) ∧
        (encodeAll vs = segment ↔ ∀ run ∈ runs, Canonical run)) ∧
      ∀ other, decode other = .ok vs → (encodeAll vs).length ≤ other.length := by
  have hshortest : ∀ other, decode other = .ok vs → (encodeAll vs).length ≤ other.length := by
    intro other hother
    obtain ⟨runs, hruns, hfits, rfl⟩ := decode_eq_ok_iff.mp hother
    exact length_encodeAll_le hruns hfits
  obtain ⟨runs, hruns, hfits, rfl⟩ := decode_eq_ok_iff.mp h
  exact ⟨decode_encodeAll_value hfits, hshortest segment h,
    ⟨runs, hruns, fun runs' hruns' => hruns'.unique hruns, encodeAll_eq_iff hruns hfits⟩, hshortest⟩

/-- A padded zero, a number, and a zero with a sign. -/
theorem encodeAll_canonical_padded :
    decode ['g', 'A', 'D', 'B'] = .ok [0, -1, 0] ∧ encodeAll [0, -1, 0] = ['A', 'D', 'A'] ∧
      decode ['A', 'D', 'A'] = .ok [0, -1, 0] ∧
      ∃ runs, Divides (utf8 ['g', 'A', 'D', 'B']) runs ∧ ¬ ∀ run ∈ runs, Canonical run := by
  have hread : decode ['g', 'A', 'D', 'B'] = .ok [0, -1, 0] := by rfl
  have hwritten : encodeAll [0, -1, 0] = ['A', 'D', 'A'] := by decide +kernel
  obtain ⟨hagain, -, ⟨runs, hruns, -, hcanonical⟩, -⟩ := encodeAll_canonical hread
  rw [hwritten] at hagain hcanonical
  exact ⟨hread, hwritten, hagain, runs, hruns, fun h => absurd (hcanonical.mpr h) (by decide)⟩

end TypedStyles.Vlq
