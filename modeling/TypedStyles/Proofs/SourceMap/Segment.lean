import Mathlib.Algebra.BigOperators.Group.List.Basic
import Mathlib.Algebra.Ring.Int.Defs
import TypedStyles.Proofs.SourceMap.Sums

/-!
# Segments and their sums

Every number of a mapping is the sum of the numbers in one place of the segments
up to the mapping.  The generated column is summed over the segments of one
line, and the other numbers over the whole document (`Segment.sums`).

`Segment.Gives` says which mapping a segment gives behind the segments before
it, `Segment.Readable` when it can be read, and `Segment.Refused` why it cannot.
They speak of sums alone.  The running sums of the reader are those of the
segments before, put into words (`Segment.eq_sums_of_read`).  Where they fit in
words, the reader gives what the sums give and refuses what they refuse
(`Segment.read_eq_ok_iff`, `Segment.read_eq_error_iff`).
-/

namespace TypedStyles

/-! ## Segments -/

/-- A segment of a document. -/
structure Segment where
  /-- The number of its generated line. -/
  line : Nat
  text : List Char
deriving DecidableEq

/-- The segments of a document, in the order in which they stand.  Semicolons
separate the generated lines and commas the segments of a line.  What is empty
is no segment. -/
def Document.allSegments (doc : Document) : List Segment :=
  ((doc.mappings.toList.splitOn ';').zipIdx 1).flatMap fun (group, line) =>
    ((group.splitOn ',').filter (· ≠ [])).map (⟨line, ·⟩)

namespace Segment

/-- The numbers of a segment.  A segment that is not a row of numbers has none. -/
def numbers (s : Segment) : List Int :=
  match Vlq.decode s.text with
  | .ok vs => vs.map Int64.toInt
  | .error _ => []

/-- The sum of the numbers in place `i`.  A segment of fewer numbers adds
nothing. -/
def total (i : Nat) (ss : List Segment) : Int := (ss.filterMap (·.numbers[i]?)).sum

end Segment

/-- The sums over some segments.  The column is summed over those of one
generated line. -/
def Totals.upTo (line : Nat) (ss : List Segment) : Totals where
  column := Segment.total 0 (ss.filter (·.line = line))
  source := Segment.total 1 ss
  originLine := Segment.total 2 ss
  originColumn := Segment.total 3 ss
  name := Segment.total 4 ss

namespace Segment

/-- The sums at a segment, its own numbers included. -/
def sums (before : List Segment) (s : Segment) : Totals := Totals.upTo s.line (before ++ [s])

/-- The sums at the segment fit in words.  Only one, four or five numbers are ever
added. -/
def SumsFit (before : List Segment) (s : Segment) : Prop :=
  s.numbers.length ∈ [1, 4, 5] → (s.sums before).Fits

instance (before : List Segment) (s : Segment) : Decidable (s.SumsFit before) :=
  inferInstanceAs (Decidable (_ → _))

end Segment

/-! ## What a segment gives -/

namespace Segment

variable (doc : Document) (before : List Segment) (s : Segment)

/-- The segment has a mapping with this name. -/
inductive Carries : Option String → Prop where
  | unnamed {column source originLine originColumn} :
      Vlq.decode s.text = .ok [column, source, originLine, originColumn] → Carries none
  | named {column source originLine originColumn index name} :
      Vlq.decode s.text = .ok [column, source, originLine, originColumn, index] →
      ItemAt doc.names (s.sums before).name name → Carries (some name)

/-- What the segment gives behind those before it. -/
inductive Gives : Option Mapping → Prop where
  /-- A segment of one number gives no mapping. -/
  | move {column} : Vlq.decode s.text = .ok [column] → Gives none
  | mapping {m name} :
      s.Carries doc before name → (s.sums before).Places doc s.line m → m.origin.name = name →
      Gives (some m)

/-- The segment can be read behind those before it. -/
inductive Readable : Prop where
  | move {column} : Vlq.decode s.text = .ok [column] → Readable
  | mapping {name} :
      s.Carries doc before name → IsIndex doc.sources (s.sums before).source →
      (∀ w ∈ (s.sums before).words s.line, IsWord w.2) → Readable

/-- Why the segment cannot be read behind those before it. -/
inductive Refused : DecodingError → Prop where
  /-- The segment is not a row of numbers. -/
  | malformed {fault} :
      Vlq.decode s.text = .error fault → Refused (.ofFault s.text fault)
  | fieldCount {vs} :
      Vlq.decode s.text = .ok vs → vs.length ≠ 1 → vs.length ≠ 4 → vs.length ≠ 5 →
      Refused (.fieldCount s.text vs.length)
  | nameIndex {column source originLine originColumn index} :
      Vlq.decode s.text = .ok [column, source, originLine, originColumn, index] →
      ¬ IsIndex doc.names (s.sums before).name → Refused (.nameIndex (s.sums before).name)
  | sourceIndex {name} :
      s.Carries doc before name → ¬ IsIndex doc.sources (s.sums before).source →
      Refused (.sourceIndex (s.sums before).source)
  /-- The first number that is not a word is reported. -/
  | outOfRange {name field v} :
      s.Carries doc before name → IsIndex doc.sources (s.sums before).source →
      ((s.sums before).words s.line).find? (fun w => ¬ IsWord w.2) = some (field, v) →
      Refused (.outOfRange field v)

end Segment

/-! ## Sums that grow -/

namespace Segment

theorem total_concat (i : Nat) (ss : List Segment) (s : Segment) :
    total i (ss ++ [s]) = total i ss + s.numbers[i]?.getD 0 := by
  rw [total, List.filterMap_append, List.sum_append]
  cases h : s.numbers[i]? with
  | none => simp [total, h]
  | some v => simp [total, h]

variable {doc : Document} {before : List Segment} {s : Segment}
  {column source originLine originColumn index : Int64}

theorem sums_eq (before : List Segment) (s : Segment) :
    s.sums before =
      { column := (Totals.upTo s.line before).column + s.numbers[0]?.getD 0
        source := (Totals.upTo s.line before).source + s.numbers[1]?.getD 0
        originLine := (Totals.upTo s.line before).originLine + s.numbers[2]?.getD 0
        originColumn := (Totals.upTo s.line before).originColumn + s.numbers[3]?.getD 0
        name := (Totals.upTo s.line before).name + s.numbers[4]?.getD 0 } := by
  simp [sums, Totals.upTo, total_concat, List.filter_append]

theorem toSums_of_one (h : Vlq.decode s.text = .ok [column]) :
    (s.sums before).toSums = (Totals.upTo s.line before).toSums.moveColumn column := by
  simp [sums_eq, numbers, h, Totals.toSums, Sums.moveColumn, Int64.ofInt_add]

theorem toSums_of_four (h : Vlq.decode s.text = .ok [column, source, originLine, originColumn]) :
    (s.sums before).toSums =
      (Totals.upTo s.line before).toSums.move column source originLine originColumn := by
  simp [sums_eq, numbers, h, Totals.toSums, Sums.move, Int64.ofInt_add]

theorem toSums_of_five
    (h : Vlq.decode s.text = .ok [column, source, originLine, originColumn, index]) :
    (s.sums before).toSums =
      ((Totals.upTo s.line before).toSums.move column source originLine originColumn).moveName
        index := by
  simp [sums_eq, numbers, h, Totals.toSums, Sums.move, Sums.moveName, Int64.ofInt_add]

theorem SumsFit.of_five (fit : s.SumsFit before)
    (h : Vlq.decode s.text = .ok [column, source, originLine, originColumn, index]) :
    (s.sums before).Fits :=
  fit (by simp [numbers, h])

theorem Carries.fits {name : Option String} (carries : s.Carries doc before name)
    (fit : s.SumsFit before) : (s.sums before).Fits := by
  cases carries with
  | unnamed h => exact fit (by simp [numbers, h])
  | named h _ => exact fit.of_five h

end Segment

/-! ## Reading one segment -/

/-- A segment is not a row of numbers, or a row of a count without meaning, or it has one, four or
five numbers. -/
theorem Segment.shapes (s : Segment) :
    (∃ fault, Vlq.decode s.text = .error fault) ∨
      (∃ vs, Vlq.decode s.text = .ok vs ∧ vs.length ≠ 1 ∧ vs.length ≠ 4 ∧ vs.length ≠ 5) ∨
      (∃ column, Vlq.decode s.text = .ok [column]) ∨
      (∃ column source originLine originColumn,
        Vlq.decode s.text = .ok [column, source, originLine, originColumn]) ∨
      ∃ column source originLine originColumn index,
        Vlq.decode s.text = .ok [column, source, originLine, originColumn, index] := by
  cases h : Vlq.decode s.text with
  | error fault => exact .inl ⟨fault, rfl⟩
  | ok vs =>
      match vs with
      | [column] => exact .inr (.inr (.inl ⟨column, rfl⟩))
      | [_, _, _, _] => exact .inr (.inr (.inr (.inl ⟨_, _, _, _, rfl⟩)))
      | [_, _, _, _, _] => exact .inr (.inr (.inr (.inr ⟨_, _, _, _, _, rfl⟩)))
      | [] => exact .inr (.inl ⟨_, rfl, by simp⟩)
      | [_, _] => exact .inr (.inl ⟨_, rfl, by simp⟩)
      | [_, _, _] => exact .inr (.inl ⟨_, rfl, by simp⟩)
      | _ :: _ :: _ :: _ :: _ :: _ :: _ => exact .inr (.inl ⟨_, rfl, by simp⟩)

/-- What a segment is behind those before it: not a row of numbers, a row of a count without
meaning, one number, a mapping whose name is not in the document, or a mapping. -/
theorem Segment.cases (doc : Document) (before : List Segment) (s : Segment) :
    (∃ fault, Vlq.decode s.text = .error fault) ∨
      (∃ vs, Vlq.decode s.text = .ok vs ∧ vs.length ≠ 1 ∧ vs.length ≠ 4 ∧ vs.length ≠ 5) ∨
      (∃ column, Vlq.decode s.text = .ok [column]) ∨
      (∃ column source originLine originColumn index,
        Vlq.decode s.text = .ok [column, source, originLine, originColumn, index] ∧
          ¬ IsIndex doc.names (s.sums before).name) ∨
      ∃ name, s.Carries doc before name := by
  rcases s.shapes with hfault | hcount | hmove | ⟨_, _, _, _, hunnamed⟩ | ⟨_, _, _, _, _, hnamed⟩
  · exact .inl hfault
  · exact .inr (.inl hcount)
  · exact .inr (.inr (.inl hmove))
  · exact .inr (.inr (.inr (.inr ⟨none, .unnamed hunnamed⟩)))
  · by_cases hindex : IsIndex doc.names (s.sums before).name
    · obtain ⟨name, hname⟩ := exists_itemAt_iff.mpr hindex
      exact .inr (.inr (.inr (.inr ⟨some name, .named hnamed hname⟩)))
    · exact .inr (.inr (.inr (.inl ⟨_, _, _, _, _, hnamed, hindex⟩)))

namespace Segment

variable {doc : Document} {before : List Segment} {s : Segment} {r : Option Mapping} {k : Sums}
  {e : DecodingError}

/-- Read a segment behind those before it. -/
def read (doc : Document) (before : List Segment) (s : Segment) :
    Except DecodingError (Option Mapping × Sums) :=
  (Totals.upTo s.line before).toSums.read doc s.line s.text

theorem readSegment_of_decode {text : List Char} {vs : List Int64}
    (h : Vlq.decode text = .ok vs) : readSegment text = .ok vs := by
  rw [readSegment, h]
  rfl

theorem read_of_malformed {fault : Vlq.Fault} (h : Vlq.decode s.text = .error fault) :
    s.read doc before = .error (.ofFault s.text fault) := by
  rw [read, Sums.read, readSegment, h]
  rfl

theorem read_of_fieldCount {vs : List Int64} (h : Vlq.decode s.text = .ok vs)
    (hone : vs.length ≠ 1) (hfour : vs.length ≠ 4) (hfive : vs.length ≠ 5) :
    s.read doc before = .error (.fieldCount s.text vs.length) := by
  rw [read, Sums.read, readSegment_of_decode h]
  match vs with
  | [] => rfl
  | [_] => exact absurd rfl hone
  | [_, _] => rfl
  | [_, _, _] => rfl
  | [_, _, _, _] => exact absurd rfl hfour
  | [_, _, _, _, _] => exact absurd rfl hfive
  | _ :: _ :: _ :: _ :: _ :: _ :: _ => rfl

theorem read_of_move {column : Int64} (h : Vlq.decode s.text = .ok [column]) :
    s.read doc before = .ok (none, (s.sums before).toSums) := by
  rw [read, Sums.read, readSegment_of_decode h, toSums_of_one h]
  rfl

theorem read_of_unnamed {column source originLine originColumn : Int64}
    (h : Vlq.decode s.text = .ok [column, source, originLine, originColumn]) :
    s.read doc before = do
      let m ← (s.sums before).toSums.mapping doc s.line none
      return (some m, (s.sums before).toSums) := by
  rw [read, Sums.read, readSegment_of_decode h, toSums_of_four h]
  rfl

theorem read_of_named {column source originLine originColumn index : Int64}
    (h : Vlq.decode s.text = .ok [column, source, originLine, originColumn, index]) :
    s.read doc before =
      match itemAt? doc.names (s.sums before).toSums.name.toInt with
      | none => .error (.nameIndex (s.sums before).toSums.name.toInt)
      | some name => do
          let m ← (s.sums before).toSums.mapping doc s.line (some name)
          return (some m, (s.sums before).toSums) := by
  rw [read, Sums.read, readSegment_of_decode h, toSums_of_five h]
  rfl

/-- Behind a segment that is read the sums of the reader are those of the segments. -/
theorem eq_sums_of_read (h : s.read doc before = .ok (r, k)) : k = (s.sums before).toSums := by
  rcases s.shapes with ⟨fault, hfault⟩ | ⟨vs, hvs, hone, hfour, hfive⟩ | ⟨column, hmove⟩ |
    ⟨_, _, _, _, hunnamed⟩ | ⟨_, _, _, _, _, hnamed⟩
  · rw [read_of_malformed hfault] at h
    cases h
  · rw [read_of_fieldCount hvs hone hfour hfive] at h
    cases h
  · rw [read_of_move hmove] at h
    exact (Prod.mk.inj (Except.ok.inj h)).2.symm
  · rw [read_of_unnamed hunnamed] at h
    obtain ⟨m, -, h⟩ := bind_eq_ok_iff.mp h
    exact (Prod.mk.inj (Except.ok.inj h)).2.symm
  · rw [read_of_named hnamed] at h
    split at h
    · cases h
    · obtain ⟨m, -, h⟩ := bind_eq_ok_iff.mp h
      exact (Prod.mk.inj (Except.ok.inj h)).2.symm

theorem read_of_nameIndex {column source originLine originColumn index : Int64}
    (fit : s.SumsFit before)
    (h : Vlq.decode s.text = .ok [column, source, originLine, originColumn, index])
    (hindex : ¬ IsIndex doc.names (s.sums before).name) :
    s.read doc before = .error (.nameIndex (s.sums before).name) := by
  have hname : (s.sums before).toSums.name.toInt = (s.sums before).name :=
    (fit.of_five h).name.toInt_ofInt
  rw [read_of_named h, hname, itemAt?_eq_none_iff.mpr hindex]

theorem read_of_carries {name : Option String} (fit : s.SumsFit before)
    (carries : s.Carries doc before name) :
    s.read doc before = do
      let m ← (s.sums before).toSums.mapping doc s.line name
      return (some m, (s.sums before).toSums) := by
  cases carries with
  | unnamed h => exact read_of_unnamed h
  | named h hname =>
      have hindex : (s.sums before).toSums.name.toInt = (s.sums before).name :=
        (fit.of_five h).name.toInt_ofInt
      rw [read_of_named h, hindex, itemAt?_eq_some_iff.mpr hname]

section Fit

variable (fit : s.SumsFit before)
include fit

/-- A segment that is read gives a mapping or none, and behind it the sums are its own. -/
theorem read_eq_ok_iff :
    s.read doc before = .ok (r, k) ↔ s.Gives doc before r ∧ k = (s.sums before).toSums := by
  constructor
  · intro h
    refine ⟨?_, eq_sums_of_read h⟩
    rcases s.cases doc before with ⟨fault, hfault⟩ | ⟨vs, hvs, hone, hfour, hfive⟩ |
      ⟨column, hmove⟩ | ⟨_, _, _, _, _, hnamed, hindex⟩ | ⟨name, carries⟩
    · rw [read_of_malformed hfault] at h
      cases h
    · rw [read_of_fieldCount hvs hone hfour hfive] at h
      cases h
    · rw [read_of_move hmove] at h
      obtain ⟨rfl, -⟩ := Prod.mk.inj (Except.ok.inj h)
      exact .move hmove
    · rw [read_of_nameIndex fit hnamed hindex] at h
      cases h
    · rw [read_of_carries fit carries] at h
      obtain ⟨m, hm, h⟩ := bind_eq_ok_iff.mp h
      obtain ⟨rfl, -⟩ := Prod.mk.inj (Except.ok.inj h)
      obtain ⟨places, hname⟩ := (carries.fits fit).mapping_eq_ok_iff.mp hm
      exact .mapping carries places hname
  · rintro ⟨gives, rfl⟩
    cases gives with
    | move h => exact read_of_move h
    | mapping carries places hname =>
        rw [read_of_carries fit carries]
        have hmapping := (carries.fits fit).mapping_eq_ok_iff.mpr ⟨places, hname⟩
        exact bind_eq_ok_iff.mpr ⟨_, hmapping, rfl⟩

theorem read_eq_error_iff : s.read doc before = .error e ↔ s.Refused doc before e := by
  constructor
  · intro h
    rcases s.cases doc before with ⟨fault, hfault⟩ | ⟨vs, hvs, hone, hfour, hfive⟩ |
      ⟨column, hmove⟩ | ⟨_, _, _, _, _, hnamed, hindex⟩ | ⟨name, carries⟩
    · rw [read_of_malformed hfault] at h
      rw [← Except.error.inj h]
      exact .malformed hfault
    · rw [read_of_fieldCount hvs hone hfour hfive] at h
      rw [← Except.error.inj h]
      exact .fieldCount hvs hone hfour hfive
    · rw [read_of_move hmove] at h
      cases h
    · rw [read_of_nameIndex fit hnamed hindex] at h
      rw [← Except.error.inj h]
      exact .nameIndex hnamed hindex
    · rw [read_of_carries fit carries] at h
      rcases bind_eq_error_iff.mp h with h | ⟨m, -, h⟩
      · rcases (carries.fits fit).mapping_eq_error_iff.mp h with
          ⟨hindex, rfl⟩ | ⟨hindex, w, hw, rfl⟩
        · exact .sourceIndex carries hindex
        · exact .outOfRange carries hindex hw
      · cases h
  · intro refused
    cases refused with
    | malformed h => exact read_of_malformed h
    | fieldCount h hone hfour hfive => exact read_of_fieldCount h hone hfour hfive
    | nameIndex h hindex => exact read_of_nameIndex fit h hindex
    | sourceIndex carries hindex =>
        rw [read_of_carries fit carries]
        apply bind_eq_error_iff.mpr
        exact .inl ((carries.fits fit).mapping_eq_error_iff.mpr (.inl ⟨hindex, rfl⟩))
    | outOfRange carries hindex hw =>
        rw [read_of_carries fit carries]
        apply bind_eq_error_iff.mpr
        exact .inl ((carries.fits fit).mapping_eq_error_iff.mpr (.inr ⟨hindex, _, hw, rfl⟩))

/-- A segment can be read if its sums are in range. -/
theorem exists_read_iff : (∃ p, s.read doc before = .ok p) ↔ s.Readable doc before := by
  constructor
  · rintro ⟨⟨r, k⟩, h⟩
    cases ((read_eq_ok_iff fit).mp h).1 with
    | move hmove => exact .move hmove
    | mapping carries places hname =>
        have hmapping := (carries.fits fit).mapping_eq_ok_iff.mpr ⟨places, hname⟩
        obtain ⟨hindex, hwords⟩ := (carries.fits fit).exists_mapping_iff.mp ⟨_, hmapping⟩
        exact .mapping carries hindex hwords
  · intro readable
    cases readable with
    | move h => exact ⟨_, read_of_move h⟩
    | mapping carries hindex hwords =>
        obtain ⟨m, hm⟩ := (carries.fits fit).exists_mapping_iff.mpr ⟨hindex, hwords⟩
        rw [read_of_carries fit carries]
        exact ⟨_, bind_eq_ok_iff.mpr ⟨m, hm, rfl⟩⟩

/-- A segment that has a mapping and can be read gives it. -/
theorem Carries.exists_gives {name : Option String} (carries : s.Carries doc before name)
    (readable : s.Readable doc before) :
    ∃ m, s.Gives doc before (some m) ∧ (s.sums before).Places doc s.line m := by
  obtain ⟨p, h⟩ := (exists_read_iff fit).mpr readable
  rw [read_of_carries fit carries] at h
  obtain ⟨m, hm, -⟩ := bind_eq_ok_iff.mp h
  obtain ⟨places, hname⟩ := (carries.fits fit).mapping_eq_ok_iff.mp hm
  exact ⟨m, .mapping carries places hname, places⟩

end Fit

theorem Gives.readable {r : Option Mapping} (gives : s.Gives doc before r) :
    s.Readable doc before := by
  cases gives with
  | move h => exact .move h
  | mapping carries places _ => exact .mapping carries places.isIndex places.isWord

theorem Gives.exists_carries {m : Mapping} (gives : s.Gives doc before (some m)) :
    ∃ name, s.Carries doc before name ∧ (s.sums before).Places doc s.line m := by
  cases gives with
  | mapping carries places _ => exact ⟨_, carries, places⟩

end Segment

end TypedStyles
