import TypedStyles.Proofs.SourceMap.Failure
import TypedStyles.Proofs.Traversal

/-!
# Mappings that can be written

Mappings can be written if they stand on lines of the text in the order of
their positions, their origins have lines, and the numbers of every segment are
representable (`Document.ofMappings_accepts_iff`).  Otherwise the first mapping
that breaks one of these rules is reported, for the first rule that it breaks.

The rules speak of a mapping and of the one before it (`Mapping.Acceptable`,
`Mapping.Refused`).  The writer keeps a cursor.  As long as the rules hold, the
cursor is determined by the mappings that were written (`Cursor.behind`), so
writing is a walk over the mappings, each with those before it
(`Cursor.writeAll_behind`).
-/

namespace TypedStyles

/-! ## The rules -/

/-- The index of a file among the files of some mappings, which are numbered in
the order of first use. -/
def fileIndex (ms : List Mapping) (file : String) : Nat :=
  (ms.map (·.origin.file)).eraseDups.idxOf file

namespace Mapping

/-- A number of a mapping, relative to the same number of a mapping before it if
there is one. -/
def relative (number : Mapping → Int) (last? : Option Mapping) (m : Mapping) : Int :=
  number m - last?.elim 0 number

/-- The numbers of the segment of a mapping, in the order in which they are
written.  They are relative to the mapping before, and the column only to one
on the same line. -/
def steps (before : List Mapping) (m : Mapping) : List (MappingField × Int) :=
  [(.generatedColumn, m.relative (·.generated.column.toNat)
      (before.getLast?.filter (·.generated.line = m.generated.line))),
    (.sourceIndex, m.relative (fileIndex (before ++ [m]) ·.origin.file) before.getLast?),
    (.originLine, m.relative (·.origin.position.line.toNat - 1) before.getLast?),
    (.originColumn, m.relative (·.origin.position.column.toNat) before.getLast?)]

/-- The mapping stands on one of so many lines. -/
def OnLine (lines : Nat) (m : Mapping) : Prop :=
  1 ≤ m.generated.line.toNat ∧ m.generated.line.toNat ≤ lines

instance (lines : Nat) (m : Mapping) : Decidable (OnLine lines m) :=
  inferInstanceAs (Decidable (_ ∧ _))

/-- The mappings can be written for a text of so many lines. -/
structure Acceptable (lines : Nat) (ms : List Mapping) : Prop where
  onLine : ∀ m ∈ ms, m.OnLine lines
  /-- The origins have lines. -/
  originLine : ∀ m ∈ ms, m.origin.position.line ≠ 0
  sorted : Sorted ms
  steps : ∀ before m after, ms = before ++ m :: after →
    ∀ step ∈ m.steps before, Representable step.2

/-- The mapping may stand behind others in a text of so many lines. -/
structure Placed (lines : Nat) (before : List Mapping) (m : Mapping) : Prop where
  onLine : m.OnLine lines
  originLine : m.origin.position.line ≠ 0
  sorted : ∀ last, before.getLast? = some last → last.generated ≤ m.generated

/-- Why a mapping may not stand behind others. -/
inductive Misplaced (lines : Nat) (before : List Mapping) (m : Mapping) : EncodingError → Prop where
  | lineOutside :
      ¬ m.OnLine lines → Misplaced lines before m (.lineOutside m.generated.line (.ofNat lines))
  | originLineZero :
      m.OnLine lines → m.origin.position.line = 0 →
      Misplaced lines before m (.originLineZero m.generated)
  | unsorted {last} :
      m.OnLine lines → m.origin.position.line ≠ 0 → before.getLast? = some last →
      ¬ last.generated ≤ m.generated → Misplaced lines before m (.unsorted m.generated)

/-- Why a mapping cannot be written behind others. -/
inductive Refused (lines : Nat) (before : List Mapping) (m : Mapping) : EncodingError → Prop where
  | misplaced {e} : m.Misplaced lines before e → Refused lines before m e
  /-- The first number that is not representable is reported. -/
  | delta {field d} :
      m.Placed lines before →
      (m.steps before).find? (fun step => ¬ Representable step.2) = some (field, d) →
      Refused lines before m (.delta field d)

end Mapping

/-! ## The cursor behind some mappings -/

namespace Cursor

/-- The cursor behind mappings that were written. -/
def behind (ms : List Mapping) : Cursor where
  line := ms.getLast?.elim 1 (·.generated.line)
  opened := ms.getLast?.isSome
  column := ms.getLast?.elim 0 (·.generated.column)
  source := ms.getLast?.elim 0 (.ofNat <| fileIndex ms ·.origin.file)
  originLine := ms.getLast?.elim 0 (·.origin.position.line - 1)
  originColumn := ms.getLast?.elim 0 (·.origin.position.column)
  sources := (ms.map (·.origin.file)).eraseDups

theorem behind_nil : behind [] = start := rfl

variable {before : List Mapping} {m : Mapping}

theorem behind_concat (before : List Mapping) (m : Mapping) :
    behind (before ++ [m]) =
      { line := m.generated.line
        opened := true
        column := m.generated.column
        source := .ofNat (fileIndex (before ++ [m]) m.origin.file)
        originLine := m.origin.position.line - 1
        originColumn := m.origin.position.column
        sources := ((before ++ [m]).map (·.origin.file)).eraseDups } := by
  simp [behind]

/-- The file of a mapping has the same index behind further mappings. -/
theorem fileIndex_concat_of_mem {file : String} (h : file ∈ before.map (·.origin.file)) :
    fileIndex (before ++ [m]) file = fileIndex before file := by
  rw [fileIndex, fileIndex, List.map_append, List.map_singleton, eraseDups_concat]
  split
  next => rfl
  next => exact List.idxOf_append_of_mem (List.mem_eraseDups.mpr h)

/-- A file that is not used yet gets the next index. -/
theorem fileIndex_concat_self :
    fileIndex (before ++ [m]) m.origin.file = fileIndex before m.origin.file := by
  by_cases h : m.origin.file ∈ before.map (·.origin.file)
  · exact fileIndex_concat_of_mem h
  · have hnew : m.origin.file ∉ (before.map (·.origin.file)).eraseDups := by
      simpa [List.mem_eraseDups] using h
    rw [fileIndex, fileIndex, List.map_append, List.map_singleton, eraseDups_concat, if_neg h,
      List.idxOf_append_of_notMem hnew, List.idxOf_of_notMem hnew, List.idxOf_cons_self]
    rfl

theorem line_toLine {k : Cursor} {line : UInt32} (h : k.line ≤ line) :
    (k.toLine line).line = line := by
  rw [toLine]
  split
  next => rfl
  next hge => exact UInt32.le_antisymm h (UInt32.not_lt.mp hge)

/-- Going to a line leaves all but the generated position. -/
theorem toLine_eq (k : Cursor) (line : UInt32) :
    k.toLine line
      = { k with
          line := (k.toLine line).line
          opened := (k.toLine line).opened
          column := (k.toLine line).column } := by
  rw [toLine]
  split
  next => rfl
  next => rfl

theorem column_toLine (k : Cursor) (line : UInt32) :
    (k.toLine line).column = if k.line < line then 0 else k.column := by
  rw [toLine]
  split
  next => rfl
  next => rfl

/-- The cursor behind a further mapping. -/
theorem past_behind (h : (behind before).line ≤ m.generated.line) :
    ((behind before).toLine m.generated.line).past m = behind (before ++ [m]) := by
  have hsource : ((behind before).toLine m.generated.line).sources.idxOf m.origin.file
      = fileIndex (before ++ [m]) m.origin.file := by
    rw [toLine_eq, fileIndex_concat_self]
    rfl
  have hsources : (if m.origin.file ∈ ((behind before).toLine m.generated.line).sources
      then ((behind before).toLine m.generated.line).sources
      else ((behind before).toLine m.generated.line).sources ++ [m.origin.file])
      = ((before ++ [m]).map (·.origin.file)).eraseDups := by
    rw [toLine_eq, List.map_append, List.map_singleton, eraseDups_concat]
    simp only [behind, List.mem_eraseDups]
  rw [past, line_toLine h, hsource, hsources, behind_concat]

theorem toNat_fileIndex {ms : List Mapping} (hfew : Mapping.FewFiles ms) (h : m ∈ ms) :
    (UInt32.ofNat (fileIndex ms m.origin.file)).toNat = fileIndex ms m.origin.file := by
  have hfile : m.origin.file ∈ (ms.map (·.origin.file)).eraseDups :=
    List.mem_eraseDups.mpr (List.mem_map_of_mem h)
  exact UInt32.toNat_ofNat_of_lt' (Nat.lt_trans (List.idxOf_lt_length_of_mem hfile) hfew)

/-! Every number of the cursor is that of the last mapping, or zero if there is none. -/

theorem column_toLine_behind (hle : (behind before).line ≤ m.generated.line) :
    (((behind before).toLine m.generated.line).column.toNat : Int)
      = (before.getLast?.filter (·.generated.line = m.generated.line)).elim (0 : Int)
          (·.generated.column.toNat) := by
  rw [column_toLine]
  rcases List.eq_nil_or_concat before with rfl | ⟨init, last, rfl⟩
  · simp [behind]
  · rw [List.concat_eq_append, behind_concat] at hle ⊢
    by_cases hsame : last.generated.line = m.generated.line
    · simp [hsame, Option.filter]
    · have hlt := UInt32.lt_of_le_of_ne hle hsame
      simp [hlt, hsame, Option.filter]

theorem source_behind (hfew : Mapping.FewFiles (before ++ [m])) :
    ((behind before).source.toNat : Int)
      = before.getLast?.elim (0 : Int) (fileIndex (before ++ [m]) ·.origin.file) := by
  rcases List.eq_nil_or_concat before with rfl | ⟨init, last, rfl⟩
  · rfl
  · have hindex : fileIndex (init ++ [last] ++ [m]) last.origin.file
        = fileIndex (init ++ [last]) last.origin.file := fileIndex_concat_of_mem (by simp)
    rw [List.concat_eq_append] at hfew ⊢
    rw [behind_concat, List.getLast?_concat, Option.elim_some, hindex,
      toNat_fileIndex hfew.of_append (by simp)]

theorem toNat_originLine_sub_one (h : m.origin.position.line ≠ 0) :
    ((m.origin.position.line - 1).toNat : Int) = m.origin.position.line.toNat - 1 := by
  have hpast := start.toNat_originLine_past h
  have hsame : (start.past m).originLine = m.origin.position.line - 1 := rfl
  rw [hsame] at hpast
  omega

theorem originLine_behind (horigins : ∀ n ∈ before, n.origin.position.line ≠ 0) :
    ((behind before).originLine.toNat : Int)
      = before.getLast?.elim (0 : Int) (·.origin.position.line.toNat - 1) := by
  rcases List.eq_nil_or_concat before with rfl | ⟨init, last, rfl⟩
  · rfl
  · have hlast := toNat_originLine_sub_one (horigins last (by simp))
    simpa [behind] using hlast

theorem originColumn_behind :
    ((behind before).originColumn.toNat : Int)
      = before.getLast?.elim (0 : Int) (·.origin.position.column.toNat) := by
  rcases List.eq_nil_or_concat before with rfl | ⟨init, last, rfl⟩
  · rfl
  · simp [behind]

/-- The numbers between two cursors are those of the mapping that is passed. -/
theorem steps_behind (hfew : Mapping.FewFiles (before ++ [m]))
    (hle : (behind before).line ≤ m.generated.line)
    (horigins : ∀ n ∈ before ++ [m], n.origin.position.line ≠ 0) :
    ((behind before).toLine m.generated.line).steps
      (((behind before).toLine m.generated.line).past m) = m.steps before := by
  have hbefore : ∀ n ∈ before, n.origin.position.line ≠ 0 := fun n hn =>
    horigins n (List.mem_append_left _ hn)
  have hline := toNat_originLine_sub_one (horigins m (by simp))
  rw [past_behind hle, behind_concat, steps, column_toLine_behind hle, toLine_eq,
    source_behind hfew, originLine_behind hbefore, originColumn_behind, hline,
    toNat_fileIndex hfew (by simp)]
  rfl

/-- A mapping is out of order behind others if it comes before the last of them. -/
theorem unsorted_behind_iff (hline : m.generated.line ≠ 0) :
    (behind before).Unsorted m ↔
      ∃ last, before.getLast? = some last ∧ ¬ last.generated ≤ m.generated := by
  rcases List.eq_nil_or_concat before with rfl | ⟨init, last, rfl⟩
  · have hfirst : ¬ m.generated.line < 1 := fun h => hline (UInt32.lt_one_iff.mp h)
    simp [Unsorted, behind, hfirst]
  · simp [Unsorted, behind, Position.not_le_iff]

end Cursor

/-! ## Writing one mapping -/

theorem unrepresentable_iff {steps : List (MappingField × Int)} {e : EncodingError} :
    Unrepresentable steps e ↔
      ∃ step, steps.find? (fun step => ¬ Representable step.2) = some step ∧
        e = .delta step.1 step.2 := by
  induction steps with
  | nil =>
      constructor
      · intro h
        cases h
      · rintro ⟨step, h, -⟩
        cases h
  | cons step steps ih =>
      by_cases hstep : Representable step.2
      · rw [List.find?_cons_of_neg (by simpa using hstep), ← ih]
        constructor
        · intro h
          cases h with
          | here h => exact absurd hstep h
          | later _ h => exact h
        · exact .later hstep
      · rw [List.find?_cons_of_pos (by simpa using hstep)]
        constructor
        · intro h
          cases h with
          | here _ => exact ⟨_, rfl, rfl⟩
          | later h _ => exact absurd h hstep
        · rintro ⟨_, h, rfl⟩
          obtain rfl := Option.some.inj h
          exact .here hstep

namespace Mapping

variable {lines : Nat} {before : List Mapping} {m : Mapping} {e : EncodingError}

theorem onLine_iff (hlines : lines < 0x100000000) :
    m.OnLine lines ↔ ¬ (m.generated.line = 0 ∨ .ofNat lines < m.generated.line) := by
  have hcount : (UInt32.ofNat lines).toNat = lines := UInt32.toNat_ofNat_of_lt' hlines
  rw [OnLine, not_or, UInt32.not_lt, UInt32.le_iff_toNat_le, hcount, ← UInt32.toNat_inj,
    UInt32.toNat_zero]
  omega

theorem placed_iff_not_misplaced : m.Placed lines before ↔ ∀ e, ¬ m.Misplaced lines before e := by
  constructor
  · intro placed e misplaced
    cases misplaced with
    | lineOutside h => exact h placed.onLine
    | originLineZero _ h => exact placed.originLine h
    | unsorted _ _ hlast h => exact h (placed.sorted _ hlast)
  · intro none
    have hon : m.OnLine lines := not_not.mp fun h => none _ (.lineOutside h)
    have horigin : m.origin.position.line ≠ 0 := fun h => none _ (.originLineZero hon h)
    refine ⟨hon, horigin, fun last hlast => ?_⟩
    exact not_not.mp fun h => none _ (.unsorted hon horigin hlast h)

theorem Placed.line_behind_le (placed : m.Placed lines before) :
    (Cursor.behind before).line ≤ m.generated.line := by
  rcases List.eq_nil_or_concat before with rfl | ⟨init, last, rfl⟩
  · exact UInt32.le_iff_toNat_le.mpr placed.onLine.1
  · rw [List.concat_eq_append, Cursor.behind_concat]
    exact Position.line_le_of_le (placed.sorted last (by simp))

/-- A mapping is checked for where it may stand. -/
theorem check_behind_eq_error_iff (hlines : lines < 0x100000000) :
    (Cursor.behind before).check (.ofNat lines) m = .error e ↔ m.Misplaced lines before e := by
  have hline (hon : m.OnLine lines) : m.generated.line ≠ 0 :=
    fun h => (onLine_iff hlines).mp hon (Or.inl h)
  rw [Cursor.check]
  constructor
  · intro h
    split at h
    next houtside =>
      rw [← Except.error.inj h]
      exact .lineOutside fun hon => (onLine_iff hlines).mp hon houtside
    next hinside =>
      have hon := (onLine_iff hlines).mpr hinside
      split at h
      next hzero =>
        rw [← Except.error.inj h]
        exact .originLineZero hon hzero
      next horigin =>
        split at h
        next hunsorted =>
          obtain ⟨last, hlast, hbefore⟩ := (Cursor.unsorted_behind_iff (hline hon)).mp hunsorted
          rw [← Except.error.inj h]
          exact .unsorted hon horigin hlast hbefore
        next => cases h
  · intro misplaced
    cases misplaced with
    | lineOutside hoff => rw [if_pos (not_not.mp ((onLine_iff hlines).not.mp hoff))]
    | originLineZero hon hzero => rw [if_neg ((onLine_iff hlines).mp hon), if_pos hzero]
    | unsorted hon horigin hlast hbefore =>
        have hunsorted := (Cursor.unsorted_behind_iff (hline hon)).mpr ⟨_, hlast, hbefore⟩
        rw [if_neg ((onLine_iff hlines).mp hon), if_neg horigin, if_pos hunsorted]

theorem check_behind_eq_ok_iff (hlines : lines < 0x100000000) :
    (Cursor.behind before).check (.ofNat lines) m = .ok () ↔ m.Placed lines before := by
  rw [placed_iff_not_misplaced]
  simp only [← check_behind_eq_error_iff hlines]
  cases (Cursor.behind before).check (.ofNat lines) m with
  | error e => simp
  | ok _ => simp

/-- A mapping behind others whose origins have lines is refused by the rules. -/
theorem write_behind_eq_error_iff (hlines : lines < 0x100000000)
    (hfew : FewFiles (before ++ [m])) (horigins : ∀ n ∈ before, n.origin.position.line ≠ 0) :
    (Cursor.behind before).write (.ofNat lines) m = .error e ↔ m.Refused lines before e := by
  have hsteps (placed : m.Placed lines before) :=
    Cursor.steps_behind hfew placed.line_behind_le
      (List.forall_mem_append.mpr ⟨horigins, List.forall_mem_singleton.mpr placed.originLine⟩)
  rw [Cursor.write_eq_error_iff, check_behind_eq_error_iff hlines, check_behind_eq_ok_iff hlines]
  constructor
  · rintro (misplaced | ⟨placed, h⟩)
    · exact .misplaced misplaced
    · rw [hsteps placed, unrepresentable_iff] at h
      obtain ⟨⟨field, d⟩, hfind, rfl⟩ := h
      exact .delta placed hfind
  · intro refused
    cases refused with
    | misplaced misplaced => exact Or.inl misplaced
    | delta placed hfind =>
        refine Or.inr ⟨placed, ?_⟩
        rw [hsteps placed, unrepresentable_iff]
        exact ⟨_, hfind, rfl⟩

/-! ## Writing mappings in turn -/

/-- The text of a mapping with those before it. -/
def rendered (lines : UInt32) (p : List Mapping × Mapping) : Except EncodingError (List Char) :=
  ((Cursor.behind p.1).write lines p.2).map Prod.fst

/-- Behind a mapping that was written, the cursor is behind it and those before it. -/
theorem write_behind_eq_map (lines : UInt32) (before : List Mapping) (m : Mapping) :
    (Cursor.behind before).write lines m
      = (rendered lines (before, m)).map (·, Cursor.behind (before ++ [m])) := by
  rw [rendered]
  cases h : (Cursor.behind before).write lines m with
  | error e => rfl
  | ok r =>
      obtain ⟨s, k⟩ := r
      obtain ⟨-, hpast, -⟩ := Cursor.write_eq_ok_iff.mp h
      rw [hpast, Cursor.past_behind (Cursor.le_of_write_eq_ok h).1]
      rfl

end Mapping

/-- Mappings are written one by one, each behind those before it. -/
theorem Cursor.writeAll_behind (lines : UInt32) (before ms : List Mapping) :
    (behind before).writeAll lines ms
      = ((withBefore before ms).mapM (Mapping.rendered lines)).map
          fun texts => (texts.flatten, behind (before ++ ms)) := by
  induction ms generalizing before with
  | nil => simp [writeAll, withBefore, pure, Except.pure, Except.map]
  | cons m ms ih =>
      rw [writeAll, withBefore, List.mapM_cons, Mapping.write_behind_eq_map]
      cases Mapping.rendered lines (before, m) with
      | error e => rfl
      | ok head =>
          simp only [bind, Except.bind, Except.map, ih]
          cases (withBefore (before ++ [m]) ms).mapM (Mapping.rendered lines) with
          | error e => rfl
          | ok texts => simp [pure, Except.pure]

namespace Mapping

variable {lines : Nat} {before ms : List Mapping} {m : Mapping} {e : EncodingError}

theorem rendered_eq_error_iff (hlines : lines < 0x100000000)
    (hfew : FewFiles (before ++ [m])) (h : Acceptable lines before) :
    rendered (.ofNat lines) (before, m) = .error e ↔ m.Refused lines before e := by
  rw [rendered, map_eq_error_iff, write_behind_eq_error_iff hlines hfew h.originLine]

theorem not_refused_iff :
    (∀ e, ¬ m.Refused lines before e) ↔
      m.Placed lines before ∧ ∀ step ∈ m.steps before, Representable step.2 := by
  constructor
  · intro none
    have placed : m.Placed lines before :=
      placed_iff_not_misplaced.mpr fun e misplaced => none e (.misplaced misplaced)
    refine ⟨placed, ?_⟩
    cases h : (m.steps before).find? (fun step => ¬ Representable step.2) with
    | none => simpa using h
    | some step => exact absurd (.delta placed h) (none _)
  · rintro ⟨placed, hsteps⟩ e refused
    cases refused with
    | misplaced misplaced => exact placed_iff_not_misplaced.mp placed e misplaced
    | delta _ hfind =>
        have hstep := List.find?_some hfind
        simp [hsteps _ (List.mem_of_find?_eq_some hfind)] at hstep

theorem sorted_concat_iff :
    Sorted (ms ++ [m]) ↔
      Sorted ms ∧ ∀ last, ms.getLast? = some last → last.generated ≤ m.generated := by
  rw [Sorted, List.pairwise_append]
  constructor
  · rintro ⟨hms, -, hm⟩
    exact ⟨hms, fun last hlast => hm last (List.mem_of_getLast? hlast) m (by simp)⟩
  · rintro ⟨hms, hm⟩
    refine ⟨hms, List.pairwise_singleton _ m, fun n hn _ hlast => ?_⟩
    obtain rfl := List.mem_singleton.mp hlast
    -- The last mapping is between.
    rcases List.eq_nil_or_concat ms with rfl | ⟨init, last, rfl⟩
    · cases hn
    · rw [List.concat_eq_append] at hms hm hn
      have hlast := hm last (by simp)
      rcases List.mem_append.mp hn with hinit | hsame
      · have hle := (List.pairwise_append.mp hms).2.2 n hinit last (by simp)
        exact Position.le_trans hle hlast
      · obtain rfl := List.mem_singleton.mp hsame
        exact hlast

theorem acceptable_nil : Acceptable lines [] where
  onLine := by simp
  originLine := by simp
  sorted := .nil
  steps := by simp

/-- A further mapping can be written if no rule refuses it. -/
theorem acceptable_concat_iff :
    Acceptable lines (ms ++ [m]) ↔ Acceptable lines ms ∧ ∀ e, ¬ m.Refused lines ms e := by
  rw [not_refused_iff]
  constructor
  · intro h
    obtain ⟨hsorted, hlast⟩ := sorted_concat_iff.mp h.sorted
    obtain ⟨honLine, hm⟩ := List.forall_mem_append.mp h.onLine
    obtain ⟨horiginLine, horigin⟩ := List.forall_mem_append.mp h.originLine
    have hsteps : ∀ before n after, ms = before ++ n :: after →
        ∀ step ∈ n.steps before, Representable step.2 := by
      intro before n after hsplit
      exact h.steps before n (after ++ [m]) (by simp [hsplit])
    have placed : m.Placed lines ms :=
      ⟨hm m (List.mem_singleton_self m), horigin m (List.mem_singleton_self m), hlast⟩
    exact ⟨⟨honLine, horiginLine, hsorted, hsteps⟩, placed, h.steps ms m [] rfl⟩
  · rintro ⟨h, placed, hsteps⟩
    refine ⟨?_, ?_, ?_, fun before n after hsplit => ?_⟩
    · exact List.forall_mem_append.mpr ⟨h.onLine, List.forall_mem_singleton.mpr placed.onLine⟩
    · exact List.forall_mem_append.mpr
        ⟨h.originLine, List.forall_mem_singleton.mpr placed.originLine⟩
    · exact sorted_concat_iff.mpr ⟨h.sorted, placed.sorted⟩
    · -- The mapping is the new one, or it stands among the others.
      rcases List.eq_nil_or_concat after with rfl | ⟨init, last, rfl⟩
      · obtain ⟨rfl, hn⟩ := List.append_inj' hsplit rfl
        obtain ⟨rfl, -⟩ := List.cons.inj hn
        exact hsteps
      · rw [List.concat_eq_append, ← List.cons_append, ← List.append_assoc] at hsplit
        obtain ⟨hms, -⟩ := List.append_inj' hsplit rfl
        exact h.steps before n init hms

/-- Mappings can be written if the rules hold. -/
theorem acceptable_iff (hlines : lines < 0x100000000) (hfew : FewFiles ms) :
    Acceptable lines ms ↔
      ∃ texts, (withBefore [] ms).mapM (rendered (.ofNat lines)) = .ok texts := by
  induction ms using List.reverseRecOn with
  | nil => exact iff_of_true acceptable_nil ⟨[], rfl⟩
  | append_singleton ms m ih =>
      have hsplit : withBefore [] (ms ++ [m]) = withBefore [] ms ++ [(ms, m)] :=
        withBefore_append [] ms [m]
      rw [acceptable_concat_iff, hsplit, exists_mapM_iff, List.forall_mem_append,
        List.forall_mem_singleton, ← exists_mapM_iff, ← ih hfew.of_append, and_congr_right_iff]
      -- What the rules refuse is refused as soon as the mappings before are written.
      intro h
      simp only [exists_eq_ok_iff, ne_eq, rendered_eq_error_iff hlines hfew h]

end Mapping

/-! ## Documents -/

/-- A document is written mapping by mapping, each behind those before it. -/
theorem Document.ofMappings_eq_mapM (text : List Char) (ms : List Mapping) :
    Document.ofMappings text ms
      = ((withBefore [] ms).mapM (Mapping.rendered (lineCount text))).map fun texts =>
          ⟨3, (ms.map (·.origin.file)).eraseDups, [], String.ofList texts.flatten⟩ := by
  rw [ofMappings, ← Cursor.behind_nil, Cursor.writeAll_behind]
  cases (withBefore [] ms).mapM (Mapping.rendered (lineCount text)) with
  | error e => rfl
  | ok texts => rfl

/-- Sorted mappings are not refused for their order, whatever the text is. -/
theorem Document.ofMappings_ne_unsorted {ms : List Mapping} (h : Mapping.Sorted ms)
    (text : List Char) (p : Position) : Document.ofMappings text ms ≠ .error (.unsorted p) := by
  intro herror
  have hcount : lineCount text = .ofNat (lineCount text).toNat := UInt32.ofNat_toNat.symm
  have hlines : (lineCount text).toNat < 0x100000000 := UInt32.toNat_lt _
  rw [ofMappings_eq_mapM, map_eq_error_iff, mapM_withBefore_eq_error_iff] at herror
  obtain ⟨before, m, after, rfl, -, hm⟩ := herror
  rw [Mapping.rendered, map_eq_error_iff, Cursor.write_eq_error_iff, hcount] at hm
  rcases hm with hcheck | ⟨-, hsteps⟩
  · cases (Mapping.check_behind_eq_error_iff hlines).mp hcheck with
    | unsorted _ _ hlast hafter =>
        have hle := (List.pairwise_append.mp h).2.2 _ (List.mem_of_getLast? hlast) m (by simp)
        exact hafter hle
  · obtain ⟨step, -, hdelta⟩ := unrepresentable_iff.mp hsteps
    cases hdelta

/-- **Mappings that can be written.**  Mappings into fewer than 2^32 files can be written for a
text if they stand on its lines in the order of their positions, their origins have lines, and the
numbers of every segment are representable.  Otherwise the first mapping that breaks a rule behind
those before it is reported. -/
theorem Document.ofMappings_accepts_iff {text : List Char}
    (hlines : (text.splitOn '\n').length < 0x100000000) {ms : List Mapping}
    (hfew : Mapping.FewFiles ms) :
    ((∃ doc, Document.ofMappings text ms = .ok doc) ↔
        Mapping.Acceptable (text.splitOn '\n').length ms) ∧
      ∀ e, Document.ofMappings text ms = .error e ↔
        ∃ before m after, ms = before ++ m :: after ∧
          Mapping.Acceptable (text.splitOn '\n').length before ∧
          m.Refused (text.splitOn '\n').length before e := by
  rw [ofMappings_eq_mapM]
  constructor
  · rw [exists_map_iff, Mapping.acceptable_iff hlines hfew]
    rfl
  · intro e
    rw [map_eq_error_iff, mapM_withBefore_eq_error_iff, lineCount]
    apply exists_congr
    intro before
    apply exists_congr
    intro m
    apply exists_congr
    intro after
    apply and_congr_right
    rintro rfl
    have hfew' : Mapping.FewFiles (before ++ [m]) := by
      rw [← List.singleton_append, ← List.append_assoc] at hfew
      exact hfew.of_append
    rw [← Mapping.acceptable_iff hlines hfew.of_append]
    exact and_congr_right (Mapping.rendered_eq_error_iff hlines hfew')

/-- The second mapping leads to no line and also comes before the first.  The last one stands
outside of the text.  Only the line zero of the second is reported. -/
theorem Document.ofMappings_first_refused :
    ("ab\nc".toList.splitOn '\n').length < 0x100000000 ∧
      Mapping.Acceptable 2 [mappingAt 1 1 1 0 "a.css", mappingAt 2 0 3 4 "b.css"] ∧
      Document.ofMappings "ab\nc".toList
          [mappingAt 1 1 1 0 "a.css", mappingAt 1 0 0 0 "a.css", mappingAt 3 0 1 0 "a.css"]
        = .error (.originLineZero ⟨1, 0⟩) := by
  have hlines : ("ab\nc".toList.splitOn '\n').length < 0x100000000 := by decide
  have accepts {ms : List Mapping} (hfew : Mapping.FewFiles ms) :=
    Document.ofMappings_accepts_iff hlines hfew
  refine ⟨hlines, (accepts (by decide +kernel)).1.mp ⟨_, rfl⟩,
    ((accepts (by decide +kernel)).2 _).mpr ?_⟩
  exact ⟨[mappingAt 1 1 1 0 "a.css"], mappingAt 1 0 0 0 "a.css", [mappingAt 3 0 1 0 "a.css"], rfl,
    (accepts (by decide +kernel)).1.mp ⟨_, rfl⟩, .misplaced (.originLineZero (by decide) rfl)⟩

end TypedStyles
