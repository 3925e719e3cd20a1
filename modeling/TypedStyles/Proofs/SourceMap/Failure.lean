import TypedStyles.Proofs.SourceMap.Lookup
import TypedStyles.Proofs.SourceMap.RoundTrip

/-!
# When mappings cannot be written

A segment cannot be written if one of its numbers is not representable, and the
first such number is reported (`writeSegment_eq_error_iff`).

Mappings into one file that have a line each cannot break the rules about where
a mapping stands.  What is left are the rules about its origin: it must have a
line, and it must be within reach of the origin before
(`Cursor.Ahead.writeAll_eq_error_iff`).
-/

namespace TypedStyles

/-! ## Numbers -/

/-- The number fits in 32 bits with a sign. -/
def Representable (d : Int) : Prop := -0x80000000 ≤ d ∧ d < 0x80000000

instance (d : Int) : Decidable (Representable d) := inferInstanceAs (Decidable (_ ∧ _))

theorem writeDelta_eq (field : MappingField) (current previous : Nat) :
    writeDelta field current previous
      = if Representable (current - previous) then
          .ok (Vlq.encode (Int64.ofInt (current - previous)))
        else .error (.delta field (current - previous)) := rfl

theorem writeDelta_eq_error_iff {field : MappingField} {current previous : Nat}
    {e : EncodingError} :
    writeDelta field current previous = .error e ↔
      ¬ Representable (current - previous) ∧ e = .delta field (current - previous) := by
  rw [writeDelta_eq]
  split
  next h => simp [h]
  next h => simp [h, eq_comm]

theorem exists_writeDelta_iff {field : MappingField} {current previous : Nat} :
    (∃ s, writeDelta field current previous = .ok s) ↔ Representable (current - previous) := by
  rw [writeDelta_eq]
  split
  next h => simp [h]
  next h => simp [h]

/-- A number among these is not representable, and the first of them is reported. -/
inductive Unrepresentable : List (MappingField × Int) → EncodingError → Prop where
  | here {field d steps} :
      ¬ Representable d → Unrepresentable ((field, d) :: steps) (.delta field d)
  | later {field d steps e} :
      Representable d → Unrepresentable steps e → Unrepresentable ((field, d) :: steps) e

/-- A number and what is written behind it cannot be written. -/
theorem bind_writeDelta_eq_error_iff {α : Type} {field : MappingField} {current previous : Nat}
    {f : List Char → Except EncodingError α} {steps : List (MappingField × Int)}
    {e : EncodingError} (hf : ∀ s, f s = .error e ↔ Unrepresentable steps e) :
    (writeDelta field current previous >>= f) = .error e ↔
      Unrepresentable ((field, current - previous) :: steps) e := by
  rw [bind_eq_error_iff, writeDelta_eq_error_iff]
  constructor
  · rintro (⟨h, rfl⟩ | ⟨s, hs, hrest⟩)
    · exact .here h
    · exact .later (exists_writeDelta_iff.mp ⟨s, hs⟩) ((hf s).mp hrest)
  · intro h
    cases h with
    | here h => exact Or.inl ⟨h, rfl⟩
    | later h hrest =>
        obtain ⟨s, hs⟩ := exists_writeDelta_iff.mpr h
        exact Or.inr ⟨s, hs, (hf s).mpr hrest⟩

/-- The numbers of the segment between two cursors, in the order in which they are written. -/
def Cursor.steps (before after : Cursor) : List (MappingField × Int) :=
  [(.generatedColumn, after.column.toNat - before.column.toNat),
    (.sourceIndex, after.source.toNat - before.source.toNat),
    (.originLine, after.originLine.toNat - before.originLine.toNat),
    (.originColumn, after.originColumn.toNat - before.originColumn.toNat)]

/-- A segment is refused for the first of its numbers that is not representable. -/
theorem writeSegment_eq_error_iff {before after : Cursor} {e : EncodingError} :
    writeSegment before after = .error e ↔ Unrepresentable (before.steps after) e := by
  rw [writeSegment, Cursor.steps]
  apply bind_writeDelta_eq_error_iff
  intro column
  apply bind_writeDelta_eq_error_iff
  intro source
  apply bind_writeDelta_eq_error_iff
  intro originLine
  apply bind_writeDelta_eq_error_iff
  intro originColumn
  constructor
  · intro h
    cases h
  · intro h
    cases h

/-! ## Origins within reach -/

namespace Position

/-- An origin at `q` can be written behind an origin at `p`: it has a line, and neither the lines
nor the columns are too far apart. -/
structure WithinReach (p q : Position) : Prop where
  line_ne_zero : q.line ≠ 0
  line : Representable ((q.line.toNat : Int) - p.line.toNat)
  column : Representable ((q.column.toNat : Int) - p.column.toNat)

instance (p q : Position) : Decidable (WithinReach p q) :=
  decidable_of_iff (q.line ≠ 0 ∧ Representable ((q.line.toNat : Int) - p.line.toNat) ∧
      Representable ((q.column.toNat : Int) - p.column.toNat))
    ⟨fun h => ⟨h.1, h.2.1, h.2.2⟩, fun h => ⟨h.line_ne_zero, h.line, h.column⟩⟩

/-- Why an origin at `q` cannot be written behind an origin at `p`, for a mapping at `generated`.
A line that is zero is reported first, then a line that is out of reach, and then a column. -/
inductive Fault (generated p q : Position) : EncodingError → Prop where
  | lineZero : q.line = 0 → Fault generated p q (.originLineZero generated)
  | line : q.line ≠ 0 → ¬ Representable ((q.line.toNat : Int) - p.line.toNat) →
      Fault generated p q (.delta .originLine ((q.line.toNat : Int) - p.line.toNat))
  | column : q.line ≠ 0 → Representable ((q.line.toNat : Int) - p.line.toNat) →
      ¬ Representable ((q.column.toNat : Int) - p.column.toNat) →
      Fault generated p q (.delta .originColumn ((q.column.toNat : Int) - p.column.toNat))

theorem withinReach_iff_not_fault {generated p q : Position} :
    WithinReach p q ↔ ∀ e, ¬ Fault generated p q e := by
  constructor
  · intro reach e fault
    cases fault with
    | lineZero h => exact reach.line_ne_zero h
    | line _ h => exact h reach.line
    | column _ _ h => exact h reach.column
  · intro none
    have hzero : q.line ≠ 0 := fun h => none _ (.lineZero h)
    have hline : Representable ((q.line.toNat : Int) - p.line.toNat) :=
      not_not.mp fun h => none _ (.line hzero h)
    have hcolumn : Representable ((q.column.toNat : Int) - p.column.toNat) :=
      not_not.mp fun h => none _ (.column hzero hline h)
    exact ⟨hzero, hline, hcolumn⟩

end Position

/-! ## Mappings into one file -/

namespace Cursor

/-- The last origin was at `p`, and every origin so far was in `file`. -/
structure At (file : String) (p : Position) (k : Cursor) : Prop where
  sources : k.sources = [] ∨ k.sources = [file]
  source : k.source = 0
  line : k.originLine.toNat + 1 = p.line.toNat
  column : k.originColumn = p.column

theorem at_start (file : String) : start.At file .start := ⟨Or.inl rfl, rfl, rfl, rfl⟩

/-- The mapping leads to `file` and stands on a line of the text below the cursor. -/
structure Below (lines : UInt32) (file : String) (k : Cursor) (m : Mapping) : Prop where
  file : m.origin.file = file
  line_lt : k.line < m.generated.line
  line_le : m.generated.line ≤ lines
  column : m.generated.column.toNat < 0x80000000

/-- A mapping is refused for where it stands, and otherwise for its numbers. -/
theorem write_eq_error_iff {lines : UInt32} {k : Cursor} {m : Mapping} {e : EncodingError} :
    k.write lines m = .error e ↔
      k.check lines m = .error e ∨ k.check lines m = .ok () ∧ Unrepresentable
        ((k.toLine m.generated.line).steps ((k.toLine m.generated.line).past m)) e := by
  rw [write, bind_eq_error_iff, ← writeSegment_eq_error_iff]
  constructor
  · rintro (h | ⟨⟨⟩, hcheck, h⟩)
    · exact Or.inl h
    · rcases bind_eq_error_iff.mp h with h | ⟨segment, -, h⟩
      · exact Or.inr ⟨hcheck, h⟩
      · cases h
  · rintro (h | ⟨hcheck, h⟩)
    · exact Or.inl h
    · exact Or.inr ⟨(), hcheck, bind_eq_error_iff.mpr (Or.inl h)⟩

section Below

variable {lines : UInt32} {file : String} {p : Position} {k k' : Cursor} {m : Mapping}
  {e : EncodingError}

/-- The cursor after a mapping below it. -/
theorem Below.toLine (below : k.Below lines file m) :
    k.toLine m.generated.line = { k with line := m.generated.line, opened := false, column := 0 } :=
  if_pos below.line_lt

/-- A mapping below the cursor can only be refused for its origin. -/
theorem Below.check_eq (below : k.Below lines file m) :
    k.check lines m
      = if m.origin.position.line = 0 then .error (.originLineZero m.generated) else .ok () := by
  have hinside : ¬ (m.generated.line = 0 ∨ lines < m.generated.line) := by
    rintro (hzero | houtside)
    · have hbelow := below.line_lt
      rw [hzero] at hbelow
      exact UInt32.not_lt_zero hbelow
    · exact UInt32.not_lt.mpr below.line_le houtside
  have hsorted : ¬ k.Unsorted m := by
    rintro (habove | ⟨hsame, -⟩)
    · exact UInt32.lt_asymm habove below.line_lt
    · exact UInt32.ne_of_lt below.line_lt hsame.symm
  rw [check, if_neg hinside, if_neg hsorted]

theorem At.past (here : k.At file p) (below : k.Below lines file m)
    (hzero : m.origin.position.line ≠ 0) :
    ((k.toLine m.generated.line).past m).At file m.origin.position := by
  have hpast : ((k.toLine m.generated.line).past m).sources = [file] ∧
      ((k.toLine m.generated.line).past m).source = 0 := by
    rw [Cursor.past, below.toLine, below.file]
    rcases here.sources with h | h
    · rw [h]
      exact ⟨rfl, rfl⟩
    · rw [h]
      exact ⟨if_pos List.mem_cons_self, congrArg UInt32.ofNat List.idxOf_cons_self⟩
  exact ⟨Or.inr hpast.1, hpast.2, toNat_originLine_past _ hzero, rfl⟩

/-- The generated column counts from the beginning of the line, and the file stays the same. -/
theorem At.steps_eq (here : k.At file p) (below : k.Below lines file m)
    (hzero : m.origin.position.line ≠ 0) :
    (k.toLine m.generated.line).steps ((k.toLine m.generated.line).past m)
      = [(MappingField.generatedColumn, (m.generated.column.toNat : Int)),
        (MappingField.sourceIndex, 0),
        (MappingField.originLine, m.origin.position.line.toNat - p.line.toNat),
        (MappingField.originColumn, m.origin.position.column.toNat - p.column.toNat)] := by
  have next := here.past below hzero
  have hbefore : (k.toLine m.generated.line).column = 0 := by rw [below.toLine]
  have hafter : ((k.toLine m.generated.line).past m).column = m.generated.column := rfl
  have hsource : (k.toLine m.generated.line).source = 0 := by rw [below.toLine, here.source]
  have hline : (k.toLine m.generated.line).originLine.toNat + 1 = p.line.toNat := by
    rw [below.toLine, ← here.line]
  have hcolumn : (k.toLine m.generated.line).originColumn = p.column := by
    rw [below.toLine, ← here.column]
  have hlines : (((k.toLine m.generated.line).past m).originLine.toNat : Int)
      - (k.toLine m.generated.line).originLine.toNat
      = m.origin.position.line.toNat - p.line.toNat := by
    rw [← next.line, ← hline]
    omega
  rw [steps, hlines, hbefore, hafter, next.source, hsource, next.column, hcolumn]
  rfl

theorem At.unrepresentable_iff (here : k.At file p) (below : k.Below lines file m)
    (hzero : m.origin.position.line ≠ 0) :
    Unrepresentable ((k.toLine m.generated.line).steps ((k.toLine m.generated.line).past m)) e ↔
      Position.Fault m.generated p m.origin.position e := by
  have hcolumn : Representable m.generated.column.toNat := by
    have := below.column
    exact ⟨by omega, by omega⟩
  have hsource : Representable 0 := by decide
  rw [here.steps_eq below hzero]
  constructor
  · intro h
    cases h with
    | here h => exact absurd hcolumn h
    | later _ h => cases h with
      | here h => exact absurd hsource h
      | later _ h => cases h with
        | here h => exact .line hzero h
        | later hline h => cases h with
          | here h => exact .column hzero hline h
          | later _ h => cases h
  · intro fault
    cases fault with
    | lineZero h => exact absurd h hzero
    | line _ h => exact .later hcolumn (.later hsource (.here h))
    | column _ hline h => exact .later hcolumn (.later hsource (.later hline (.here h)))

/-- A mapping below the cursor can only be refused for its origin. -/
theorem At.write_eq_error_iff (here : k.At file p) (below : k.Below lines file m) :
    k.write lines m = .error e ↔ Position.Fault m.generated p m.origin.position e := by
  rw [Cursor.write_eq_error_iff, below.check_eq]
  by_cases hzero : m.origin.position.line = 0
  · rw [if_pos hzero]
    constructor
    · rintro (h | ⟨h, -⟩)
      · rw [← Except.error.inj h]
        exact .lineZero hzero
      · cases h
    · intro fault
      cases fault with
      | lineZero => exact Or.inl rfl
      | line hne => exact absurd hzero hne
      | column hne => exact absurd hzero hne
  · rw [if_neg hzero, ← here.unrepresentable_iff below hzero]
    simp

/-- Behind a mapping that is written the cursor is at its origin, which was within reach. -/
theorem At.of_write (here : k.At file p) (below : k.Below lines file m) {s : List Char}
    (h : k.write lines m = .ok (s, k')) :
    p.WithinReach m.origin.position ∧ k'.At file m.origin.position ∧
      k'.line = m.generated.line := by
  have reach : p.WithinReach m.origin.position := by
    apply Position.withinReach_iff_not_fault.mpr
    intro e fault
    rw [(here.write_eq_error_iff below).mpr fault] at h
    cases h
  obtain ⟨-, rfl, -⟩ := write_eq_ok_iff.mp h
  refine ⟨reach, here.past below reach.line_ne_zero, ?_⟩
  rw [Cursor.past, below.toLine]

theorem At.exists_write (here : k.At file p) (below : k.Below lines file m)
    (reach : p.WithinReach m.origin.position) : ∃ s k', k.write lines m = .ok (s, k') := by
  cases h : k.write lines m with
  | error e =>
      have fault := (here.write_eq_error_iff below).mp h
      exact absurd fault (Position.withinReach_iff_not_fault.mp reach e)
  | ok r => exact ⟨r.1, r.2, rfl⟩

end Below

/-- The mappings stand below the cursor, each on a line of its own. -/
structure Ahead (lines : UInt32) (file : String) (k : Cursor) (ms : List Mapping) : Prop where
  below : ∀ m ∈ ms, k.Below lines file m
  lineByLine : Mapping.LineByLine ms

section Ahead

variable {lines : UInt32} {file : String} {p : Position} {k k' : Cursor} {m : Mapping}
  {ms : List Mapping} {e : EncodingError}

theorem Ahead.next (ahead : k.Ahead lines file (m :: ms)) (h : k'.line = m.generated.line) :
    k'.Ahead lines file ms := by
  obtain ⟨hm, hms⟩ := List.pairwise_cons.mp ahead.lineByLine
  refine ⟨fun n hn => ?_, hms⟩
  have below := ahead.below n (List.mem_cons_of_mem m hn)
  exact { below with line_lt := h ▸ hm n hn }

theorem writeAll_cons_eq_error_iff :
    k.writeAll lines (m :: ms) = .error e ↔
      k.write lines m = .error e ∨
        ∃ s k', k.write lines m = .ok (s, k') ∧ k'.writeAll lines ms = .error e := by
  rw [writeAll, bind_eq_error_iff]
  constructor
  · rintro (h | ⟨⟨s, k'⟩, hwrite, h⟩)
    · exact Or.inl h
    · rcases bind_eq_error_iff.mp h with h | ⟨⟨tail, last⟩, -, h⟩
      · exact Or.inr ⟨s, k', hwrite, h⟩
      · cases h
  · rintro (h | ⟨s, k', hwrite, h⟩)
    · exact Or.inl h
    · exact Or.inr ⟨(s, k'), hwrite, bind_eq_error_iff.mpr (Or.inl h)⟩

/-- Mappings are written if every origin is within reach of the one before. -/
theorem Ahead.exists_writeAll_iff (ahead : k.Ahead lines file ms) (here : k.At file p) :
    (∃ s k', k.writeAll lines ms = .ok (s, k')) ↔
      (p :: ms.map (·.origin.position)).IsChain Position.WithinReach := by
  induction ms generalizing k p with
  | nil => exact ⟨fun _ => .singleton p, fun _ => ⟨[], k, rfl⟩⟩
  | cons m ms ih =>
      have below := ahead.below m List.mem_cons_self
      rw [List.map_cons, List.isChain_cons_cons]
      constructor
      · rintro ⟨s, k', h⟩
        obtain ⟨head, between, tail, hwrite, hrest, -⟩ := writeAll_cons_eq_ok_iff.mp h
        obtain ⟨reach, there, hline⟩ := here.of_write below hwrite
        exact ⟨reach, (ih (ahead.next hline) there).mp ⟨tail, k', hrest⟩⟩
      · rintro ⟨reach, chain⟩
        obtain ⟨head, between, hwrite⟩ := here.exists_write below reach
        obtain ⟨-, there, hline⟩ := here.of_write below hwrite
        obtain ⟨tail, k', hrest⟩ := (ih (ahead.next hline) there).mpr chain
        exact ⟨head ++ tail, k', writeAll_cons_eq_ok_iff.mpr
          ⟨head, between, tail, hwrite, hrest, rfl⟩⟩

/-- Mappings are refused for the first origin that is out of reach of the one before. -/
theorem Ahead.writeAll_eq_error_iff (ahead : k.Ahead lines file ms) (here : k.At file p) :
    k.writeAll lines ms = .error e ↔
      ∃ before m after, ms = before ++ m :: after ∧
        (p :: before.map (·.origin.position)).IsChain Position.WithinReach ∧
        Position.Fault m.generated ((before.map (·.origin.position)).getLastD p)
          m.origin.position e := by
  induction ms generalizing k p with
  | nil =>
      constructor
      · intro h
        cases h
      · rintro ⟨before, m, after, h, -⟩
        exact absurd h.symm (List.append_ne_nil_of_right_ne_nil before (List.cons_ne_nil m after))
  | cons m ms ih =>
      have below := ahead.below m List.mem_cons_self
      rw [writeAll_cons_eq_error_iff, here.write_eq_error_iff below]
      constructor
      · rintro (fault | ⟨s, k', hwrite, h⟩)
        · exact ⟨[], m, ms, rfl, .singleton p, fault⟩
        · obtain ⟨reach, there, hline⟩ := here.of_write below hwrite
          obtain ⟨before, n, after, rfl, chain, fault⟩ := (ih (ahead.next hline) there).mp h
          refine ⟨m :: before, n, after, rfl, ?_, ?_⟩
          · rw [List.map_cons]
            exact List.isChain_cons_cons.mpr ⟨reach, chain⟩
          · rw [List.map_cons, List.getLastD_cons]
            exact fault
      · rintro ⟨before, n, after, hsplit, chain, fault⟩
        cases before with
        | nil =>
            obtain ⟨rfl, -⟩ := List.cons.inj hsplit
            exact Or.inl fault
        | cons b before =>
            obtain ⟨rfl, rfl⟩ := List.cons.inj hsplit
            rw [List.map_cons, List.isChain_cons_cons] at chain
            rw [List.map_cons, List.getLastD_cons] at fault
            obtain ⟨s, k', hwrite⟩ := here.exists_write below chain.1
            obtain ⟨-, there, hline⟩ := here.of_write below hwrite
            exact Or.inr ⟨s, k', hwrite, (ih (ahead.next hline) there).mpr
              ⟨before, n, after, rfl, chain.2, fault⟩⟩

end Ahead

end Cursor

end TypedStyles
