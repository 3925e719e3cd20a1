import Mathlib.Logic.Basic
import Mathlib.Tactic.ByContra
import TypedStyles.Proofs.Success
import TypedStyles.SourceMap.Decoding

/-!
# Sums in words

The reader keeps its running sums in words of 64 bits.  `Totals` are the same sums
as whole numbers, and `Totals.toSums` puts them into words.  Nothing is lost there
if the totals fit (`Totals.Fits`).

`Totals.Places` says which mapping stands at some totals.  At totals that fit, the
reader gives this mapping or reports what is wrong with the totals
(`Totals.Fits.mapping_eq_ok_iff`, `Totals.Fits.mapping_eq_error_iff`).
-/

namespace TypedStyles

/-! ## Words and indices -/

/-- A sum is a 32-bit word. -/
def IsWord (v : Int) : Prop := 0 ≤ v ∧ v < 0x100000000

instance (v : Int) : Decidable (IsWord v) := inferInstanceAs (Decidable (_ ∧ _))

/-- A sum is a 64-bit word with a sign. -/
def IsLongWord (v : Int) : Prop := -0x8000000000000000 ≤ v ∧ v < 0x8000000000000000

instance (v : Int) : Decidable (IsLongWord v) := inferInstanceAs (Decidable (_ ∧ _))

/-- A sum is the index of an item. -/
def IsIndex (xs : List String) (v : Int) : Prop := 0 ≤ v ∧ v < xs.length

instance (xs : List String) (v : Int) : Decidable (IsIndex xs v) :=
  inferInstanceAs (Decidable (_ ∧ _))

/-- The item at an index. -/
def ItemAt (xs : List String) (v : Int) (x : String) : Prop :=
  ∃ i : Nat, (i : Int) = v ∧ xs[i]? = some x

theorem IsLongWord.toInt_ofInt {v : Int} (h : IsLongWord v) : (Int64.ofInt v).toInt = v :=
  Int64.toInt_ofInt_of_le h.1 h.2

theorem itemAt?_eq_some_iff {xs : List String} {v : Int} {x : String} :
    itemAt? xs v = some x ↔ ItemAt xs v x := by
  rw [itemAt?]
  split
  next negative =>
    constructor
    · intro h
      cases h
    · rintro ⟨i, rfl, -⟩
      omega
  next nonneg =>
    constructor
    · intro h
      exact ⟨v.toNat, by omega, h⟩
    · rintro ⟨i, rfl, h⟩
      simpa using h

theorem itemAt?_eq_none_iff {xs : List String} {v : Int} :
    itemAt? xs v = none ↔ ¬ IsIndex xs v := by
  rw [itemAt?, IsIndex]
  split
  next negative => simp; omega
  next nonneg => simp; omega

theorem exists_itemAt_iff {xs : List String} {v : Int} : (∃ x, ItemAt xs v x) ↔ IsIndex xs v := by
  rw [← not_iff_not, ← itemAt?_eq_none_iff]
  simp only [← itemAt?_eq_some_iff, Option.eq_none_iff_forall_ne_some, not_exists, ne_eq]

theorem toWord_eq_ok_iff {field : MappingField} {v : Int} {w : UInt32} :
    toWord field v = .ok w ↔ (w.toNat : Int) = v := by
  rw [toWord]
  split
  next inside =>
    rw [Except.ok.injEq]
    constructor
    · rintro rfl
      rw [UInt32.toNat_ofNat_of_lt' (by show _ < 0x100000000; omega)]
      omega
    · rintro rfl
      simp
  next outside =>
    constructor
    · intro h
      cases h
    · rintro rfl
      have := w.toNat_lt
      omega

theorem toWord_eq_error_iff {field : MappingField} {v : Int} {e : DecodingError} :
    toWord field v = .error e ↔ ¬ IsWord v ∧ e = .outOfRange field v := by
  rw [toWord, IsWord]
  split
  next inside => simp [inside]
  next outside => simp [outside, eq_comm]

theorem exists_toWord_iff {field : MappingField} {v : Int} :
    (∃ w, toWord field v = .ok w) ↔ IsWord v := by
  rw [toWord, IsWord]
  split
  next inside => simp [inside]
  next outside => simp [outside]

/-- Words are made in turn, and the first number that is not a word is reported. -/
theorem bind_toWord_eq_error_iff {α : Type} {field : MappingField} {v : Int}
    {f : UInt32 → Except DecodingError α} {ws : List (MappingField × Int)} {e : DecodingError}
    (hf : ∀ w, f w = .error e ↔
      ∃ p, ws.find? (fun w => ¬ IsWord w.2) = some p ∧ e = .outOfRange p.1 p.2) :
    (toWord field v >>= f) = .error e ↔
      ∃ p, ((field, v) :: ws).find? (fun w => ¬ IsWord w.2) = some p ∧
        e = .outOfRange p.1 p.2 := by
  rw [bind_eq_error_iff, toWord_eq_error_iff]
  by_cases hv : IsWord v
  · obtain ⟨w, hw⟩ : ∃ w, toWord field v = .ok w := exists_toWord_iff.mpr hv
    simp [hv, hw, hf]
  · have hnone : ∀ w, toWord field v ≠ .ok w := fun w hw => hv (exists_toWord_iff.mp ⟨w, hw⟩)
    simp [hv, hnone]

/-! ## Totals -/

/-- Running sums as whole numbers. -/
structure Totals where
  /-- The generated column on the current line. -/
  column : Int
  source : Int
  /-- The line of the origin, counted from zero. -/
  originLine : Int
  originColumn : Int
  name : Int

namespace Totals

/-- The totals in words. -/
def toSums (t : Totals) : Sums where
  column := .ofInt t.column
  source := .ofInt t.source
  originLine := .ofInt t.originLine
  originColumn := .ofInt t.originColumn
  name := .ofInt t.name

/-- The totals fit in words, and so does the line of the origin counted from one. -/
structure Fits (t : Totals) : Prop where
  column : IsLongWord t.column
  source : IsLongWord t.source
  originLine : IsLongWord t.originLine
  originLineFromOne : IsLongWord (t.originLine + 1)
  originColumn : IsLongWord t.originColumn
  name : IsLongWord t.name

instance (t : Totals) : Decidable t.Fits :=
  decidable_of_iff
    (IsLongWord t.column ∧ IsLongWord t.source ∧ IsLongWord t.originLine ∧
      IsLongWord (t.originLine + 1) ∧ IsLongWord t.originColumn ∧ IsLongWord t.name)
    ⟨fun ⟨hcolumn, hsource, hline, hfromOne, horiginColumn, hname⟩ =>
      ⟨hcolumn, hsource, hline, hfromOne, horiginColumn, hname⟩,
    fun h => ⟨h.column, h.source, h.originLine, h.originLineFromOne, h.originColumn, h.name⟩⟩

/-- The numbers of a mapping on a generated line, in the order in which they are
checked.  Lines are counted from one. -/
def words (line : Nat) (t : Totals) : List (MappingField × Int) :=
  [(.generatedLine, line), (.generatedColumn, t.column), (.originLine, t.originLine + 1),
    (.originColumn, t.originColumn)]

/-- The mapping stands at these totals, on the generated line of this number. -/
structure Places (doc : Document) (line : Nat) (t : Totals) (m : Mapping) : Prop where
  generatedLine : (m.generated.line.toNat : Int) = line
  column : (m.generated.column.toNat : Int) = t.column
  file : ItemAt doc.sources t.source m.origin.file
  /-- The lines of origins are stored counted from zero. -/
  originLine : (m.origin.position.line.toNat : Int) = t.originLine + 1
  originColumn : (m.origin.position.column.toNat : Int) = t.originColumn

theorem Places.isIndex {doc : Document} {line : Nat} {t : Totals} {m : Mapping}
    (places : t.Places doc line m) : IsIndex doc.sources t.source :=
  exists_itemAt_iff.mp ⟨_, places.file⟩

theorem Places.isWord {doc : Document} {line : Nat} {t : Totals} {m : Mapping}
    (places : t.Places doc line m) : ∀ w ∈ t.words line, IsWord w.2 := by
  have hword : ∀ w : UInt32, IsWord w.toNat := fun w =>
    ⟨Int.natCast_nonneg _, Int.ofNat_lt.mpr w.toNat_lt⟩
  simp only [words, List.forall_mem_cons, ← places.generatedLine, ← places.column,
    ← places.originLine, ← places.originColumn, hword, true_and]
  exact fun _ hw => absurd hw List.not_mem_nil

/-- A mapping leads to the line zero where the total of origin lines is -1. -/
theorem Places.originLine_ne_zero_iff {doc : Document} {line : Nat} {t : Totals} {m : Mapping}
    (places : t.Places doc line m) : m.origin.position.line ≠ 0 ↔ t.originLine ≠ -1 := by
  have h := places.originLine
  rw [ne_eq, ← UInt32.toNat_inj, UInt32.toNat_zero]
  omega

/-! ## The mapping at some totals -/

namespace Fits

variable {doc : Document} {line : Nat} {t : Totals} {name : Option String} {m : Mapping}
  {e : DecodingError}

theorem toInt_originLine_add_one (fits : t.Fits) :
    (t.toSums.originLine + 1).toInt = t.originLine + 1 := by
  have hone : t.toSums.originLine + 1 = Int64.ofInt (t.originLine + 1) := by
    rw [Int64.ofInt_add]
    rfl
  rw [hone, fits.originLineFromOne.toInt_ofInt]

theorem mapping_of_not_isIndex (fits : t.Fits) (h : ¬ IsIndex doc.sources t.source) :
    t.toSums.mapping doc line name = .error (.sourceIndex t.source) := by
  have hsource : t.toSums.source.toInt = t.source := fits.source.toInt_ofInt
  rw [Sums.mapping, hsource, itemAt?_eq_none_iff.mpr h]
  rfl

theorem mapping_of_itemAt (fits : t.Fits) {file : String} (h : ItemAt doc.sources t.source file) :
    t.toSums.mapping doc line name = do
      let generatedLine ← toWord .generatedLine line
      let generatedColumn ← toWord .generatedColumn t.column
      let originLine ← toWord .originLine (t.originLine + 1)
      let originColumn ← toWord .originColumn t.originColumn
      return ⟨⟨generatedLine, generatedColumn⟩, ⟨file, ⟨originLine, originColumn⟩, name⟩⟩ := by
  have hsource : t.toSums.source.toInt = t.source := fits.source.toInt_ofInt
  have hcolumn : t.toSums.column.toInt = t.column := fits.column.toInt_ofInt
  have horiginColumn : t.toSums.originColumn.toInt = t.originColumn :=
    fits.originColumn.toInt_ofInt
  rw [Sums.mapping, hsource, hcolumn, horiginColumn, fits.toInt_originLine_add_one,
    itemAt?_eq_some_iff.mpr h]
  simp only [pure_bind]

theorem mapping_eq_ok_iff (fits : t.Fits) :
    t.toSums.mapping doc line name = .ok m ↔ t.Places doc line m ∧ m.origin.name = name := by
  constructor
  · intro h
    have hindex : IsIndex doc.sources t.source := by
      by_contra hindex
      rw [fits.mapping_of_not_isIndex hindex] at h
      cases h
    obtain ⟨file, hfile⟩ := exists_itemAt_iff.mpr hindex
    rw [fits.mapping_of_itemAt hfile] at h
    obtain ⟨generatedLine, hgeneratedLine, h⟩ := bind_eq_ok_iff.mp h
    obtain ⟨column, hcolumn, h⟩ := bind_eq_ok_iff.mp h
    obtain ⟨originLine, horiginLine, h⟩ := bind_eq_ok_iff.mp h
    obtain ⟨originColumn, horiginColumn, h⟩ := bind_eq_ok_iff.mp h
    obtain rfl := Except.ok.inj h
    exact ⟨⟨toWord_eq_ok_iff.mp hgeneratedLine, toWord_eq_ok_iff.mp hcolumn, hfile,
      toWord_eq_ok_iff.mp horiginLine, toWord_eq_ok_iff.mp horiginColumn⟩, rfl⟩
  · rintro ⟨places, rfl⟩
    rw [fits.mapping_of_itemAt places.file, toWord_eq_ok_iff.mpr places.generatedLine,
      toWord_eq_ok_iff.mpr places.column, toWord_eq_ok_iff.mpr places.originLine,
      toWord_eq_ok_iff.mpr places.originColumn]
    rfl

theorem mapping_eq_error_iff (fits : t.Fits) :
    t.toSums.mapping doc line name = .error e ↔
      ¬ IsIndex doc.sources t.source ∧ e = .sourceIndex t.source ∨
        IsIndex doc.sources t.source ∧
          ∃ w, (t.words line).find? (fun w => ¬ IsWord w.2) = some w ∧
            e = .outOfRange w.1 w.2 := by
  by_cases hindex : IsIndex doc.sources t.source
  · obtain ⟨file, hfile⟩ := exists_itemAt_iff.mpr hindex
    rw [fits.mapping_of_itemAt hfile]
    simp only [hindex, not_true_eq_false, false_and, true_and, false_or]
    apply bind_toWord_eq_error_iff
    intro generatedLine
    apply bind_toWord_eq_error_iff
    intro column
    apply bind_toWord_eq_error_iff
    intro originLine
    apply bind_toWord_eq_error_iff
    intro originColumn
    simp [pure, Except.pure]
  · rw [fits.mapping_of_not_isIndex hindex]
    simp [hindex, eq_comm]

theorem exists_mapping_iff (fits : t.Fits) :
    (∃ m, t.toSums.mapping doc line name = .ok m) ↔
      IsIndex doc.sources t.source ∧ ∀ w ∈ t.words line, IsWord w.2 := by
  simp only [exists_eq_ok_iff, ne_eq, fits.mapping_eq_error_iff]
  constructor
  · intro h
    have hindex : IsIndex doc.sources t.source := by
      by_contra hindex
      exact h _ (Or.inl ⟨hindex, rfl⟩)
    refine ⟨hindex, fun w hw => ?_⟩
    by_contra hword
    cases hfind : (t.words line).find? (fun w => ¬ IsWord w.2) with
    | none => exact hword (by simpa using List.find?_eq_none.mp hfind w hw)
    | some first => exact h _ (Or.inr ⟨hindex, first, hfind, rfl⟩)
  · rintro ⟨hindex, hwords⟩ e (⟨h, -⟩ | ⟨-, w, hfind, -⟩)
    · exact h hindex
    · have hw := hwords w (List.mem_of_find?_eq_some hfind)
      simpa [hw] using List.find?_some hfind

end Fits

end Totals

end TypedStyles
