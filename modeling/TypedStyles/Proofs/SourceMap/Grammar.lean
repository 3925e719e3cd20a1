import Mathlib.Data.List.DropRight
import TypedStyles.Proofs.SourceMap.Runs
import TypedStyles.Proofs.Success

/-!
# What the reader of numbers accepts

A segment is read if its bytes are cut into runs that fit in a word, and then
every run gives its number (`decode_eq_ok_iff`).  Otherwise the first byte at
fault decides.  A byte is at fault by itself, if it is no digit, or because of
the digits that stand open before it, if the run does not fit with it
(`fault?`, `decode_eq_error_iff`).  A segment without such a byte can only fail
because digits stand open at its end (`decode_eq_unfinished_iff`).

The step of the proofs is one byte.  Behind bytes that are not at fault the
reader has given the numbers of the runs among them and holds the digits that
stand open (`Passed`), and it stays so with one more byte
(`Passed.exists_concat`).  The byte is taken without a loss: the word has room
for its bits above those it holds (`Exact`).
-/

namespace TypedStyles.Vlq

/-! ## Bytes at fault -/

/-- The digits that stand open at the end of some bytes: those with the
continuation bit after which no other byte comes. -/
def openDigits (bytes : List UInt8) : List UInt8 := bytes.rtakeWhile fun b => decide (Continues b)

/-- What is wrong with a byte behind others, if anything is.  That it is no
digit comes before that the number is too large. -/
def fault? (before : List UInt8) (b : UInt8) : Option Fault :=
  if digit? b = none then some (.invalidDigit b)
  else if Fits (openDigits before ++ [b]) then none
  else some .tooLarge

/-- No byte is at fault behind those before it. -/
def Faultless (bytes : List UInt8) : Prop :=
  ∀ before b after, bytes = before ++ b :: after → fault? before b = none

theorem openDigits_concat_of_continues {b : UInt8} (h : Continues b) (bytes : List UInt8) :
    openDigits (bytes ++ [b]) = openDigits bytes ++ [b] :=
  List.rtakeWhile_concat_pos (fun c => decide (Continues c)) bytes b (decide_eq_true h)

theorem openDigits_concat_of_ends {b : UInt8} (h : Ends b) (bytes : List UInt8) :
    openDigits (bytes ++ [b]) = [] := by
  have hstop : ¬ decide (Continues b) = true := fun hb =>
    not_ends_of_continues (of_decide_eq_true hb) h
  exact List.rtakeWhile_concat_neg (fun c => decide (Continues c)) bytes b hstop

theorem fault?_eq_none_iff {before : List UInt8} {b : UInt8} :
    fault? before b = none ↔ digit? b ≠ none ∧ Fits (openDigits before ++ [b]) := by
  rw [fault?]
  split
  next hb => simp [hb]
  next hb =>
    split
    next fits => simp [hb, fits]
    next large => simp [large]

/-- No byte is at fault for what comes after it. -/
theorem fault?_ne_unfinished (before : List UInt8) (b : UInt8) :
    fault? before b ≠ some .unfinished := by
  rw [fault?]
  split_ifs
  all_goals simp

theorem faultless_nil : Faultless [] := by
  intro before b after h
  simp at h

theorem faultless_concat_iff {bytes : List UInt8} {b : UInt8} :
    Faultless (bytes ++ [b]) ↔ Faultless bytes ∧ fault? bytes b = none := by
  constructor
  · intro h
    refine ⟨fun before c after hsplit => ?_, h bytes b [] rfl⟩
    exact h before c (after ++ [b]) (by rw [hsplit, List.append_assoc, List.cons_append])
  · rintro ⟨h, hb⟩ before c after hsplit
    cases after using List.reverseRecOn with
    | nil =>
        obtain ⟨rfl, hlast⟩ := List.append_inj' hsplit rfl
        rwa [← List.singleton_inj.mp hlast]
    | append_singleton after d =>
        rw [← List.cons_append, ← List.append_assoc] at hsplit
        exact h before c after (List.append_inj' hsplit rfl).1

/-- Either no byte is at fault or there is a first one. -/
theorem faultless_or_exists_fault (bytes : List UInt8) :
    Faultless bytes ∨ ∃ before b after e,
      bytes = before ++ b :: after ∧ Faultless before ∧ fault? before b = some e := by
  induction bytes using List.reverseRecOn with
  | nil => exact Or.inl faultless_nil
  | append_singleton bytes b ih =>
      rcases ih with h | ⟨before, c, after, e, rfl, h, hc⟩
      · cases hb : fault? bytes b with
        | none => exact Or.inl (faultless_concat_iff.mpr ⟨h, hb⟩)
        | some e => exact Or.inr ⟨bytes, b, [], e, rfl, h, hb⟩
      · exact Or.inr ⟨before, c, after ++ [b], e, by simp, h, hc⟩

/-! ## Reading behind bytes -/

/-- The bytes are cut into runs. -/
structure Divides (bytes : List UInt8) (runs : List (List UInt8)) : Prop where
  flatten : bytes = runs.flatten
  isRun : ∀ run ∈ runs, IsRun run

theorem isRun_concat {digits : List UInt8} {b : UInt8} (h : ∀ c ∈ digits, Continues c)
    (hb : Ends b) : IsRun (digits ++ [b]) := by
  induction digits with
  | nil => exact .last hb
  | cons c digits ih =>
      obtain ⟨hc, hdigits⟩ := List.forall_mem_cons.mp h
      exact .more hc (ih hdigits)

/-- The reader has gone through some bytes: it has given the numbers of the runs
and holds the digits that stand open in a word. -/
structure Passed (bytes : List UInt8) (runs : List (List UInt8)) (word shift : UInt64) : Prop where
  flatten : bytes = runs.flatten ++ openDigits bytes
  isRun : ∀ run ∈ runs, IsRun run
  fits : ∀ run ∈ runs, Fits run
  reading : Reading (openDigits bytes) word shift
  scan : ∀ rest, Vlq.scan 0 0 (bytes ++ rest)
    = (Vlq.scan word shift rest).map (runs.map value ++ ·)

theorem passed_nil : Passed [] [] 0 0 where
  flatten := rfl
  isRun := by simp
  fits := by simp
  reading := .start
  scan rest := by
    cases h : Vlq.scan 0 0 rest with
    | error e => simp [h, Except.map]
    | ok vs => simp [h, Except.map]

/-- One more byte that is not at fault is passed. -/
theorem Passed.exists_concat {bytes : List UInt8} {runs : List (List UInt8)} {w s : UInt64}
    (h : Passed bytes runs w s) {b : UInt8} (hb : fault? bytes b = none) :
    ∃ runs' w' s', Passed (bytes ++ [b]) runs' w' s' := by
  obtain ⟨hdigit, fits⟩ := fault?_eq_none_iff.mp hb
  -- A continued digit stays open, and an ended one closes a run with the open ones.
  rcases continues_or_ends hdigit with hb | hb
  · have hopen := openDigits_concat_of_continues hb bytes
    obtain ⟨w', s', hreading, hstep⟩ := h.reading.scan_more hb fits
    refine ⟨runs, w', s', ?_, h.isRun, h.fits, hopen ▸ hreading, fun rest => ?_⟩
    · rw [hopen, ← List.append_assoc, ← h.flatten]
    · rw [List.append_assoc, List.singleton_append, h.scan, hstep]
  · have hopen := openDigits_concat_of_ends hb bytes
    have hrun := isRun_concat h.reading.continues hb
    have hstart : Reading (openDigits (bytes ++ [b])) 0 0 := by
      rw [hopen]
      exact .start
    refine ⟨runs ++ [openDigits bytes ++ [b]], 0, 0, ?_, ?_, ?_, hstart, fun rest => ?_⟩
    · rw [hopen, List.flatten_append, List.flatten_singleton, List.append_nil,
        ← List.append_assoc, ← h.flatten]
    · rw [List.forall_mem_append, List.forall_mem_singleton]
      exact ⟨h.isRun, hrun⟩
    · rw [List.forall_mem_append, List.forall_mem_singleton]
      exact ⟨h.fits, fits⟩
    · rw [List.append_assoc, List.singleton_append, h.scan, h.reading.scan_last hb fits]
      cases Vlq.scan 0 0 rest with
      | error e => rfl
      | ok vs => simp [Except.map]

theorem exists_passed {bytes : List UInt8} (h : Faultless bytes) :
    ∃ runs w s, Passed bytes runs w s := by
  induction bytes using List.reverseRecOn with
  | nil => exact ⟨[], 0, 0, passed_nil⟩
  | append_singleton bytes b ih =>
      obtain ⟨hbytes, hb⟩ := faultless_concat_iff.mp h
      obtain ⟨runs, w, s, hpassed⟩ := ih hbytes
      exact hpassed.exists_concat hb

/-- The low bits of a digit are put above those of a word without a loss: the
shift is within the word, and no bit is met or dropped. -/
structure Exact (word shift digit : UInt64) : Prop where
  within : shift.toNat < 64
  sum : (word ||| (digit &&& 31) <<< shift).toNat
    = word.toNat + (digit &&& 31).toNat * 2 ^ shift.toNat

theorem Reading.exact {opened : List UInt8} {w s d : UInt64} {b : UInt8}
    (h : Reading opened w s) (hd : digit? b = some d) (fits : Fits (opened ++ [b])) :
    Exact w s d := by
  refine ⟨?_, ?_⟩
  · have hlength := fits_concat_iff.mp fits
    rw [h.shift]
    omega
  · rw [h.toNat_push hd fits, total_concat, h.word, h.shift, toNat_and_31_of_digit? hd]

/-- The reader takes every byte that is not at fault without a loss. -/
theorem exists_passed_exact {before : List UInt8} {b : UInt8} (h : Faultless (before ++ [b])) :
    ∃ runs w s d, Passed before runs w s ∧ digit? b = some d ∧ Exact w s d := by
  obtain ⟨hbefore, hb⟩ := faultless_concat_iff.mp h
  obtain ⟨hdigit, fits⟩ := fault?_eq_none_iff.mp hb
  obtain ⟨d, hd⟩ := Option.ne_none_iff_exists'.mp hdigit
  obtain ⟨runs, w, s, hpassed⟩ := exists_passed hbefore
  exact ⟨runs, w, s, d, hpassed, hd, hpassed.reading.exact hd fits⟩

/-- The reader stops at the first byte at fault. -/
theorem scan_of_fault {before after : List UInt8} {b : UInt8} {e : Fault} (h : Faultless before)
    (hb : fault? before b = some e) : scan 0 0 (before ++ b :: after) = .error e := by
  obtain ⟨runs, w, s, hpassed⟩ := exists_passed h
  rw [hpassed.scan, map_eq_error_iff]
  rw [fault?] at hb
  split at hb
  next hdigit => rw [← Option.some.inj hb, scan_of_not_digit hdigit]
  next hdigit =>
    split at hb
    next => cases hb
    next large => rw [← Option.some.inj hb, hpassed.reading.scan_tooLarge hdigit large]

/-- The reader gets to the end of bytes that are not at fault. -/
theorem exists_scan_of_faultless {bytes : List UInt8} (h : Faultless bytes) :
    (openDigits bytes ≠ [] ∧ scan 0 0 bytes = .error .unfinished) ∨
      (openDigits bytes = [] ∧ ∃ runs, Divides bytes runs ∧ (∀ run ∈ runs, Fits run) ∧
        scan 0 0 bytes = .ok (runs.map value)) := by
  obtain ⟨runs, w, s, hpassed⟩ := exists_passed h
  have hscan := hpassed.scan []
  rw [List.append_nil, hpassed.reading.scan_nil] at hscan
  by_cases hopen : openDigits bytes = []
  · rw [if_pos hopen] at hscan
    refine Or.inr ⟨hopen, runs, ⟨?_, hpassed.isRun⟩, hpassed.fits, ?_⟩
    · have hflatten := hpassed.flatten
      rwa [hopen, List.append_nil] at hflatten
    · rw [hscan]
      simp [Except.map]
  · rw [if_neg hopen] at hscan
    exact Or.inl ⟨hopen, hscan⟩

/-- Runs in a row are read as their numbers. -/
theorem scan_flatten {runs : List (List UInt8)} (h : ∀ run ∈ runs, IsRun run)
    (fits : ∀ run ∈ runs, Fits run) : scan 0 0 runs.flatten = .ok (runs.map value) := by
  induction runs with
  | nil => rfl
  | cons run runs ih =>
      obtain ⟨hrun, hruns⟩ := List.forall_mem_cons.mp h
      obtain ⟨hfit, hfits⟩ := List.forall_mem_cons.mp fits
      rw [List.flatten_cons, Reading.start.scan_run hrun hfit, ih hruns hfits]
      rfl

/-! ## Segments -/

/-- A segment is read if it is cut into runs that fit, and then as their numbers. -/
theorem decode_eq_ok_iff {segment : List Char} {vs : List Int64} :
    decode segment = .ok vs ↔ ∃ runs, Divides (utf8 segment) runs ∧ (∀ run ∈ runs, Fits run) ∧
      vs = runs.map value := by
  rw [decode]
  constructor
  · intro h
    rcases faultless_or_exists_fault (utf8 segment) with
      hclean | ⟨before, b, after, e, hsplit, hbefore, hb⟩
    · rcases exists_scan_of_faultless hclean with ⟨-, hscan⟩ | ⟨-, runs, hruns, hfits, hscan⟩
      · rw [hscan] at h
        cases h
      · exact ⟨runs, hruns, hfits, Except.ok.inj (h.symm.trans hscan)⟩
    · rw [hsplit, scan_of_fault hbefore hb] at h
      cases h
  · rintro ⟨runs, hruns, hfits, rfl⟩
    rw [hruns.flatten]
    exact scan_flatten hruns.isRun hfits

/-- A segment without a byte at fault fails only at its end. -/
theorem decode_eq_unfinished_iff {segment : List Char} :
    decode segment = .error .unfinished ↔
      Faultless (utf8 segment) ∧ openDigits (utf8 segment) ≠ [] := by
  rw [decode]
  rcases faultless_or_exists_fault (utf8 segment) with
    hclean | ⟨before, b, after, e, hsplit, hbefore, hb⟩
  · rcases exists_scan_of_faultless hclean with ⟨hopen, hscan⟩ | ⟨hclosed, runs, -, -, hscan⟩
    · simp [hscan, hclean, hopen]
    · simp [hscan, hclosed]
  · have hfaulty : ¬ Faultless (utf8 segment) := fun h => by
      rw [h before b after hsplit] at hb
      cases hb
    have hscan : scan 0 0 (utf8 segment) = .error e := hsplit ▸ scan_of_fault hbefore hb
    have he : e ≠ .unfinished := fun h => fault?_ne_unfinished before b (h ▸ hb)
    simp [hscan, hfaulty, he]

/-- A segment fails otherwise with its first byte at fault. -/
theorem decode_eq_error_iff {segment : List Char} {e : Fault} (he : e ≠ .unfinished) :
    decode segment = .error e ↔ ∃ before b after, utf8 segment = before ++ b :: after ∧
      Faultless before ∧ fault? before b = some e := by
  rw [decode]
  constructor
  · intro h
    rcases faultless_or_exists_fault (utf8 segment) with
      hclean | ⟨before, b, after, e', hsplit, hbefore, hb⟩
    · rcases exists_scan_of_faultless hclean with ⟨-, hscan⟩ | ⟨-, runs, -, -, hscan⟩
      · exact absurd (Except.error.inj (h.symm.trans hscan)) he
      · rw [hscan] at h
        cases h
    · have hscan : scan 0 0 (before ++ b :: after) = .error e' := scan_of_fault hbefore hb
      rw [← hsplit, h] at hscan
      rw [Except.error.inj hscan]
      exact ⟨before, b, after, hsplit, hbefore, hb⟩
  · rintro ⟨before, b, after, hsplit, hbefore, hb⟩
    rw [hsplit]
    exact scan_of_fault hbefore hb

/-- Half of a word is a magnitude below 2^63. -/
theorem number_bounds {n : Nat} (h : n < 2 ^ 64) :
    -0x7fffffffffffffff ≤ number n ∧ number n ≤ 0x7fffffffffffffff := by
  rw [number]
  split
  next even => omega
  next odd => omega

theorem map_toInt_value {runs : List (List UInt8)} (h : ∀ run ∈ runs, Fits run) :
    (runs.map value).map Int64.toInt = runs.map fun run => number (total run) := by
  rw [List.map_map]
  exact List.map_congr_left fun run hrun => toInt_value (h run hrun)

/-- **What a segment is.**  A segment is read exactly if its bytes are digits that are cut into
runs, none of which is larger than a word.  Then it is read as the numbers of the runs, none of
which is the smallest word.  No digit is taken with a loss.  Otherwise the first byte at fault
decides, and the end of the segment is reported only if no byte is at fault. -/
theorem decode_grammar (segment : List Char) :
    (∀ vs, decode segment = .ok vs ↔ ∃ runs, Divides (utf8 segment) runs ∧
      (∀ run ∈ runs, Fits run) ∧ vs.map Int64.toInt = runs.map fun run => number (total run)) ∧
    (∀ vs, decode segment = .ok vs →
      ∀ v ∈ vs, -0x7fffffffffffffff ≤ v.toInt ∧ v.toInt ≤ 0x7fffffffffffffff) ∧
    (∀ before b after, utf8 segment = before ++ b :: after → Faultless (before ++ [b]) →
      ∃ runs word shift digit, Passed before runs word shift ∧ digit? b = some digit ∧
        Exact word shift digit) ∧
    (∀ e, e ≠ .unfinished → (decode segment = .error e ↔
      ∃ before b after, utf8 segment = before ++ b :: after ∧ Faultless before ∧
        fault? before b = some e)) ∧
    (decode segment = .error .unfinished ↔
      Faultless (utf8 segment) ∧ openDigits (utf8 segment) ≠ []) := by
  refine ⟨fun vs => ?_, fun vs h v hv => ?_, fun before b after _ h => exists_passed_exact h,
    fun e he => decode_eq_error_iff he, decode_eq_unfinished_iff⟩
  · rw [decode_eq_ok_iff]
    constructor
    · rintro ⟨runs, hruns, hfits, rfl⟩
      exact ⟨runs, hruns, hfits, map_toInt_value hfits⟩
    · rintro ⟨runs, hruns, hfits, hvs⟩
      rw [← map_toInt_value hfits] at hvs
      exact ⟨runs, hruns, hfits, List.map_injective_iff.mpr (fun _ _ => Int64.toInt_inj.mp) hvs⟩
  · obtain ⟨runs, -, hfits, rfl⟩ := decode_eq_ok_iff.mp h
    obtain ⟨run, hrun, rfl⟩ := List.mem_map.mp hv
    rw [toInt_value (hfits run hrun)]
    exact number_bounds (hfits run hrun).total_lt

/-- Thirteen digits of which the last has four bits are a number, at the lower bound.  With one bit
more in the last digit a byte is at fault. -/
theorem decode_grammar_thirteen_digits :
    (∃ v run, decode "////////////P".toList = .ok [v] ∧ v.toInt = -0x7fffffffffffffff ∧
      Divides (utf8 "////////////P".toList) [run] ∧ Fits run ∧ v.toInt = number (total run)) ∧
    ∃ before b after, utf8 "////////////Q".toList = before ++ b :: after ∧ Faultless before ∧
      fault? before b = some .tooLarge := by
  have hread : decode "////////////P".toList = .ok [-9223372036854775807] := by rfl
  have hlarge : decode "////////////Q".toList = .error .tooLarge := by rfl
  constructor
  · obtain ⟨runs, hruns, hfits, hvs⟩ := ((decode_grammar _).1 _).mp hread
    obtain ⟨run, rfl, hv⟩ := List.map_eq_singleton_iff.mp hvs.symm
    exact ⟨_, run, hread, rfl, hruns, hfits run List.mem_cons_self, hv.symm⟩
  · exact ((decode_grammar _).2.2.2.1 .tooLarge (by decide)).mp hlarge

end TypedStyles.Vlq
