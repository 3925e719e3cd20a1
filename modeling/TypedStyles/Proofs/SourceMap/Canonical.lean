import Mathlib.Data.List.Forall2
import Mathlib.Tactic.MkIffOfInductiveProp
import TypedStyles.Proofs.SourceMap.RoundTrip
import TypedStyles.Proofs.Text.Position

/-!
# Canonical documents

A document may spell its mappings in more than one way.  The canonical
documents for a generated text are those that writing produces
(`ofMappings_iff_canonical`), so a canonical document that is read and written
again stays as it is.

`Document.Canonical` says this of the document alone.  Its text of mappings is
cut into groups at the semicolons and a group into segments at the commas, the
segments are read as deltas, and the sums of the deltas stay within bounds.
The proof goes along the tokens of the text.  `Token.Fit` is the condition on
the tokens that are left, relative to a cursor.  A route passes tokens that fit
(`Route.fit`), and tokens that fit have a route (`Token.Fit.exists_route`).
-/

namespace TypedStyles

/-! ## Sums of deltas -/

/-- The sum after each number, from a sum at the beginning. -/
def runningSums : (sum : Int) → List Int → List Int
  | _, [] => []
  | sum, v :: vs => (sum + v) :: runningSums (sum + v) vs
termination_by structural _ vs => vs

theorem forall_mem_runningSums_cons {p : Int → Prop} {sum v : Int} {vs : List Int} :
    (∀ c ∈ runningSums sum (v :: vs), p c) ↔
      p (sum + v) ∧ ∀ c ∈ runningSums (sum + v) vs, p c := by
  rw [runningSums, List.forall_mem_cons]

/-- The sums do not fall and stay below 2^32. -/
def Ascends (sum : Int) (vs : List Int) : Prop :=
  (sum :: runningSums sum vs).IsChain (· ≤ ·) ∧ ∀ c ∈ runningSums sum vs, c < 0x100000000

theorem ascends_nil (sum : Int) : Ascends sum [] := by
  constructor
  · exact .singleton sum
  · intro c hc
    cases hc

theorem ascends_cons_iff {sum v : Int} {vs : List Int} :
    Ascends sum (v :: vs) ↔ sum ≤ sum + v ∧ sum + v < 0x100000000 ∧ Ascends (sum + v) vs := by
  rw [Ascends, Ascends, forall_mem_runningSums_cons, runningSums, List.isChain_cons_cons]
  constructor
  · rintro ⟨⟨hle, hchain⟩, hlt, hrest⟩
    exact ⟨hle, hlt, hchain, hrest⟩
  · rintro ⟨hle, hlt, hchain, hrest⟩
    exact ⟨⟨hle, hchain⟩, hlt, hrest⟩

/-! ## The documents -/

/-- A group is empty, or its pieces between commas are the segments of deltas. -/
def Spells (group : List Char) (row : List Delta) : Prop :=
  if group = [] then row = [] else group.splitOn ',' = row.map Delta.text

/-- The groups of the mappings, one for each generated line. -/
def Document.groups (doc : Document) : List (List Char) := doc.mappings.toList.splitOn ';'

/-- The document is canonical for a text, and its groups spell these deltas. -/
structure Document.CanonicalBy (text : List Char) (doc : Document) (rows : List (List Delta)) :
    Prop where
  version : doc.version = 3
  names : doc.names = []
  /-- The last group is not empty, unless there are no mappings. -/
  closed : doc.mappings = "" ∨ doc.groups.getLast? ≠ some []
  /-- Every group has a line of the text. -/
  lines : doc.groups.length ≤ (text.splitOn '\n').length
  spelling : List.Forall₂ Spells doc.groups rows
  /-- The generated columns start from zero in every group. -/
  columns : ∀ row ∈ rows, Ascends 0 (row.map (·.column.toInt))
  sources : ∀ i ∈ runningSums 0 (rows.flatten.map (·.source.toInt)),
    0 ≤ i ∧ i < doc.sources.length
  /-- The lines of the origins are counted from zero and leave room for the count
  from one. -/
  originLines : ∀ l ∈ runningSums 0 (rows.flatten.map (·.originLine.toInt)),
    0 ≤ l ∧ l < 0xFFFFFFFF
  originColumns : ∀ c ∈ runningSums 0 (rows.flatten.map (·.originColumn.toInt)),
    0 ≤ c ∧ c < 0x100000000
  sources_nodup : doc.sources.Nodup
  /-- The sources are first used in the order in which they stand, and all of them
  are used. -/
  firstUse : ((runningSums 0 (rows.flatten.map (·.source.toInt))).map Int.toNat).eraseDups
    = List.range doc.sources.length

/-- The document is canonical for a text. -/
def Document.Canonical (text : List Char) (doc : Document) : Prop :=
  ∃ rows, doc.CanonicalBy text rows

/-! ## Groups and tokens -/

theorem spells_iff {group : List Char} {row : List Delta} :
    Spells group row ↔ group = rowText row := by
  rw [Spells]
  by_cases hgroup : group = []
  · rw [if_pos hgroup, hgroup, eq_comm (a := []), rowText_eq_nil_iff]
  · rw [if_neg hgroup]
    constructor
    · intro h
      rw [rowText, ← h, List.intercalate_splitOn]
    · rintro rfl
      exact splitOn_rowText fun hrow => hgroup (rowText_eq_nil_iff.mpr hrow)

theorem forall₂_spells_iff {groups : List (List Char)} {rows : List (List Delta)} :
    List.Forall₂ Spells groups rows ↔ groups = rows.map rowText := by
  have hspells : Spells = fun group row => group = rowText row := by
    funext group row
    exact propext spells_iff
  rw [hspells, ← List.forall₂_map_right_iff, List.forall₂_eq_eq_eq]

namespace Token

theorem length_rows_pos (ts : List Token) : 0 < (rows ts).length := by
  obtain ⟨row, rest, h⟩ := exists_rows_eq_cons ts
  rw [h]
  exact Nat.succ_pos _

theorem flatten_rows_segment (d : Delta) (ts : List Token) :
    (rows (.segment d :: ts)).flatten = d :: (rows ts).flatten := by
  obtain ⟨row, rest, h⟩ := exists_rows_eq_cons ts
  rw [rows, h]
  rfl

theorem length_rows_segment (d : Delta) (ts : List Token) :
    (rows (.segment d :: ts)).length = (rows ts).length := by
  rw [rows, List.length_modifyHead]

theorem exists_rows_eq : ∀ (row : List Delta) (rest : List (List Delta)),
    ∃ ts, rows ts = row :: rest
  | [], [] => ⟨[], rfl⟩
  | [], next :: rest => by
      obtain ⟨ts, h⟩ := exists_rows_eq next rest
      exact ⟨.newline :: ts, by rw [rows, h]⟩
  | d :: row, rest => by
      obtain ⟨ts, h⟩ := exists_rows_eq row rest
      exact ⟨.segment d :: ts, by rw [rows, h]; rfl⟩
termination_by row rest => (rest.length, row.length)

theorem getLast?_rows_eq_nil_iff : ∀ ts : List Token,
    (rows ts).getLast? = some [] ↔ ts = [] ∨ ts.getLast? = some .newline
  | [] => by simp [rows]
  | .newline :: ts => by
      have ih := getLast?_rows_eq_nil_iff ts
      obtain ⟨row, rest, h⟩ := exists_rows_eq_cons ts
      rw [h] at ih
      rw [rows, h, List.getLast?_cons_cons, ih]
      cases ts with
      | nil => simp
      | cons t ts => simp
  | [.segment d] => by simp [rows]
  | .segment d :: .newline :: ts => by
      have ih := getLast?_rows_eq_nil_iff (.newline :: ts)
      obtain ⟨row, rest, h⟩ := exists_rows_eq_cons ts
      rw [rows, h, List.getLast?_cons_cons] at ih
      rw [rows, rows, h, List.modifyHead_cons, List.getLast?_cons_cons, ih]
      simp
  | .segment d :: .segment e :: ts => by
      have ih := getLast?_rows_eq_nil_iff (.segment e :: ts)
      obtain ⟨row, rest, h⟩ := exists_rows_eq_cons ts
      rw [rows, h, List.modifyHead_cons] at ih
      rw [rows, rows, h, List.modifyHead_cons, List.modifyHead_cons]
      have hlonger : ((d :: e :: row) :: rest).getLast? = some []
          ↔ ((e :: row) :: rest).getLast? = some [] := by
        cases rest with
        | nil => simp
        | cons next rest => simp
      rw [hlonger, ih]
      simp

theorem text_false_eq_nil_iff {ts : List Token} : text false ts = [] ↔ ts = [] := by
  cases ts with
  | nil => simp [text]
  | cons t ts =>
      cases t with
      | newline => simp [text]
      | segment d =>
          have hd := d.text_ne_nil
          constructor
          · intro h
            rw [text] at h
            exact absurd (List.append_eq_nil_iff.mp (List.append_eq_nil_iff.mp h).1).2 hd
          · intro h
            cases h

/-- A text has these groups if it is the text of tokens with these rows. -/
theorem splitOn_eq_map_rowText_iff {s : List Char} {ts : List Token} :
    s.splitOn ';' = (rows ts).map rowText ↔ s = text false ts := by
  rw [← rowTexts_false, ← splitOn_text]
  constructor
  · intro h
    have hjoin := congrArg [';'].intercalate h
    rw [List.intercalate_splitOn, List.intercalate_splitOn] at hjoin
    exact hjoin
  · rintro rfl
    rfl

theorem closed_iff (ts : List Token) :
    Closed ts ↔ text false ts = [] ∨ ((rows ts).map rowText).getLast? ≠ some [] := by
  have hlast : ((rows ts).map rowText).getLast? = some [] ↔ (rows ts).getLast? = some [] := by
    rw [List.getLast?_map, Option.map_eq_some_iff]
    constructor
    · rintro ⟨row, hrow, hempty⟩
      rw [hrow, rowText_eq_nil_iff.mp hempty]
    · intro h
      exact ⟨[], h, rfl⟩
  rw [ne_eq, hlast, getLast?_rows_eq_nil_iff, text_false_eq_nil_iff, Closed]
  by_cases hts : ts = []
  · simp [hts]
  · simp [hts]

end Token

/-! ## The order of first use -/

/-- Indices are first used in the order in which they stand, where those below `used`
were used before and those below `n` are used at the end. -/
def UsedInOrder (used : Nat) (is : List Nat) (n : Nat) : Prop :=
  List.range used ++ (is.removeAll (List.range used)).eraseDups = List.range n

theorem usedInOrder_nil_iff {used n : Nat} : UsedInOrder used [] n ↔ used = n := by
  rw [UsedInOrder, List.removeAll, List.filter_nil, List.eraseDups_nil, List.append_nil]
  constructor
  · intro h
    simpa using congrArg List.length h
  · rintro rfl
    rfl

/-- An index was used before or is the next one. -/
theorem usedInOrder_cons_iff {used i n : Nat} {is : List Nat} :
    UsedInOrder used (i :: is) n ↔
      i < used ∧ UsedInOrder used is n ∨ i = used ∧ UsedInOrder (used + 1) is n := by
  by_cases hold : i < used
  · have hmem : i ∈ List.range used := List.mem_range.mpr hold
    have hne : i ≠ used := Nat.ne_of_lt hold
    simp only [UsedInOrder, eraseDups_removeAll_cons_of_mem hmem, hold, hne, true_and, false_and,
      or_false]
  · have hmem : i ∉ List.range used := fun h => hold (List.mem_range.mp h)
    have hnew := eraseDups_removeAll_cons_of_not_mem hmem is
    constructor
    · intro h
      -- The next index stands right after those below `used`.
      have hi : i = used := by
        rw [UsedInOrder, hnew] at h
        have hget := congrArg (fun xs => xs[used]?) h
        simp only [List.getElem?_append_right, List.length_range, Nat.le_refl, Nat.sub_self,
          List.getElem?_cons_zero] at hget
        obtain ⟨hlt, hget⟩ := List.getElem?_eq_some_iff.mp hget.symm
        rw [List.getElem_range] at hget
        exact hget.symm
      refine Or.inr ⟨hi, ?_⟩
      rw [UsedInOrder, hnew, hi] at h
      rw [UsedInOrder, List.range_succ, List.append_assoc]
      exact h
    · rintro (⟨hlt, -⟩ | ⟨rfl, h⟩)
      · exact absurd hlt hold
      · rw [UsedInOrder, List.range_succ, List.append_assoc] at h
        rw [UsedInOrder, hnew]
        exact h

/-! ## Tokens that fit -/

/-- Columns ascend on every row, from `column` on the first and from zero on the others. -/
def ColumnsFrom (column : Int) : List (List Delta) → Prop
  | [] => True
  | row :: rest =>
      Ascends column (row.map (·.column.toInt)) ∧
        ∀ row ∈ rest, Ascends 0 (row.map (·.column.toInt))

theorem columnsFrom_zero_iff {rows : List (List Delta)} :
    ColumnsFrom 0 rows ↔ ∀ row ∈ rows, Ascends 0 (row.map (·.column.toInt)) := by
  cases rows with
  | nil => simp [ColumnsFrom]
  | cons row rest => rw [ColumnsFrom, List.forall_mem_cons]

theorem columnsFrom_rows_segment_iff {column : Int} {d : Delta} {ts : List Token} :
    ColumnsFrom column (Token.rows (.segment d :: ts)) ↔
      column ≤ column + d.column.toInt ∧ column + d.column.toInt < 0x100000000 ∧
        ColumnsFrom (column + d.column.toInt) (Token.rows ts) := by
  obtain ⟨row, rest, h⟩ := Token.exists_rows_eq_cons ts
  rw [Token.rows, h, List.modifyHead_cons, ColumnsFrom, ColumnsFrom, List.map_cons,
    ascends_cons_iff]
  simp only [and_assoc]

namespace Token

/-- The tokens may come after the cursor, in a document with these sources. -/
@[mk_iff]
structure Fit (lines : UInt32) (files : List String) (k : Cursor) (ts : List Token) : Prop where
  lines : k.line.toNat + (rows ts).length ≤ lines.toNat + 1
  columns : ColumnsFrom k.column.toNat (rows ts)
  sources : ∀ i ∈ runningSums k.source.toNat ((rows ts).flatten.map (·.source.toInt)),
    0 ≤ i ∧ i < files.length
  originLines : ∀ l ∈ runningSums k.originLine.toNat ((rows ts).flatten.map (·.originLine.toInt)),
    0 ≤ l ∧ l < 0xFFFFFFFF
  originColumns :
    ∀ c ∈ runningSums k.originColumn.toNat ((rows ts).flatten.map (·.originColumn.toInt)),
      0 ≤ c ∧ c < 0x100000000
  firstUse : UsedInOrder k.sources.length
    ((runningSums k.source.toNat ((rows ts).flatten.map (·.source.toInt))).map Int.toNat)
    files.length

variable {lines : UInt32} {files : List String} {k k' : Cursor} {ts : List Token}

theorem fit_nil_iff :
    Fit lines files k [] ↔ k.line ≤ lines ∧ k.sources.length = files.length := by
  constructor
  · intro fit
    have hline := fit.lines
    exact ⟨UInt32.le_iff_toNat_le.mpr (Nat.le_of_succ_le_succ hline),
      usedInOrder_nil_iff.mp fit.firstUse⟩
  · rintro ⟨hline, hsources⟩
    have hle := UInt32.le_iff_toNat_le.mp hline
    refine ⟨Nat.succ_le_succ hle, ⟨ascends_nil _, ?_⟩, ?_, ?_, ?_, usedInOrder_nil_iff.mpr hsources⟩
    · intro row hrow
      cases hrow
    · intro i hi
      cases hi
    · intro l hl
      cases hl
    · intro c hc
      cases hc

theorem Fit.line_lt (fit : Fit lines files k (.newline :: ts)) : k.line < lines := by
  have hlines := fit.lines
  have hpos := length_rows_pos ts
  rw [rows, List.length_cons] at hlines
  exact UInt32.lt_iff_toNat_lt.mpr (by omega)

theorem fit_newline_iff (h : k.line < lines) :
    Fit lines files k (.newline :: ts) ↔ Fit lines files k.nextLine ts := by
  have hnext := Cursor.toNat_nextLine h
  have hlength : (rows (.newline :: ts)).length = (rows ts).length + 1 := rfl
  have hcolumns : ColumnsFrom k.column.toNat (rows (.newline :: ts)) ↔
      ColumnsFrom k.nextLine.column.toNat (rows ts) := by
    have hzero : (k.nextLine.column.toNat : Int) = 0 := rfl
    rw [rows, ColumnsFrom, hzero, columnsFrom_zero_iff]
    exact and_iff_right (ascends_nil _)
  constructor
  · intro fit
    have hlines := fit.lines
    exact ⟨by omega, hcolumns.mp fit.columns, fit.sources, fit.originLines, fit.originColumns,
      fit.firstUse⟩
  · intro fit
    have hlines := fit.lines
    exact ⟨by omega, hcolumns.mpr fit.columns, fit.sources, fit.originLines, fit.originColumns,
      fit.firstUse⟩

end Token

/-! ## A segment that fits -/

/-- The file of a segment between two cursors was used before, or it is the next one. -/
def Cursor.UsesFile (k k' : Cursor) : Prop :=
  k'.source.toNat < k.sources.length ∧ k'.sources.length = k.sources.length ∨
    k'.source.toNat = k.sources.length ∧ k'.sources.length = k.sources.length + 1

theorem Cursor.usesFile_past {k : Cursor} {m : Mapping}
    (h : (k.past m).sources.length < 0x100000000) : k.UsesFile (k.past m) := by
  rw [UsesFile, toNat_source_past h]
  by_cases hused : m.origin.file ∈ k.sources
  · rw [sources_past_of_mem hused]
    exact .inl ⟨List.idxOf_lt_length_of_mem hused, rfl⟩
  · rw [sources_past_of_not_mem hused, List.length_append]
    exact .inr ⟨List.idxOf_eq_length hused, rfl⟩

theorem Cursor.UsesFile.usedInOrder_iff {k k' : Cursor} (uses : k.UsesFile k') {is : List Nat}
    {n : Nat} :
    UsedInOrder k.sources.length (k'.source.toNat :: is) n ↔
      UsedInOrder k'.sources.length is n := by
  rw [usedInOrder_cons_iff]
  rcases uses with ⟨hlt, hlength⟩ | ⟨heq, hlength⟩
  · simp only [hlength, hlt, Nat.ne_of_lt hlt, true_and, false_and, or_false]
  · simp only [hlength, heq, Nat.lt_irrefl, false_and, true_and, false_or]

namespace Token

variable {lines : UInt32} {files : List String} {k k' : Cursor} {d : Delta}

/-- The sums of one number from a segment on are the sum at the segment and those from there. -/
theorem runningSums_segment (number : Delta → Int32) {sum next : Nat}
    (h : (number d).toInt = (next : Int) - sum) (ts : List Token) :
    runningSums sum ((rows (.segment d :: ts)).flatten.map fun d => (number d).toInt)
      = (next : Int) :: runningSums next ((rows ts).flatten.map fun d => (number d).toInt) := by
  have hnext : (sum : Int) + (number d).toInt = next := by omega
  rw [flatten_rows_segment, List.map_cons, runningSums, hnext]

theorem columnsFrom_segment_iff (between : d.Between k k') (ts : List Token) :
    ColumnsFrom k.column.toNat (rows (.segment d :: ts)) ↔
      k.column ≤ k'.column ∧ ColumnsFrom k'.column.toNat (rows ts) := by
  have hcolumn : (k.column.toNat : Int) + d.column.toInt = k'.column.toNat := by
    rw [between.column]
    omega
  have hword := k'.column.toNat_lt
  rw [columnsFrom_rows_segment_iff, hcolumn, UInt32.le_iff_toNat_le]
  constructor
  · rintro ⟨hle, -, hrest⟩
    exact ⟨by omega, hrest⟩
  · rintro ⟨hle, hrest⟩
    exact ⟨by omega, by omega, hrest⟩

theorem sources_segment_iff (between : d.Between k k') (ts : List Token) :
    (∀ i ∈ runningSums k.source.toNat ((rows (.segment d :: ts)).flatten.map (·.source.toInt)),
        0 ≤ i ∧ i < files.length) ↔
      k'.source.toNat < files.length ∧
        ∀ i ∈ runningSums k'.source.toNat ((rows ts).flatten.map (·.source.toInt)),
          0 ≤ i ∧ i < files.length := by
  rw [runningSums_segment Delta.source between.source, List.forall_mem_cons]
  exact and_congr_left fun _ => ⟨fun h => by omega, fun h => by omega⟩

theorem originLines_segment_iff (between : d.Between k k') (ts : List Token) :
    (∀ l ∈ runningSums k.originLine.toNat
          ((rows (.segment d :: ts)).flatten.map (·.originLine.toInt)), 0 ≤ l ∧ l < 0xFFFFFFFF) ↔
      k'.originLine.toNat < 0xFFFFFFFF ∧
        ∀ l ∈ runningSums k'.originLine.toNat ((rows ts).flatten.map (·.originLine.toInt)),
          0 ≤ l ∧ l < 0xFFFFFFFF := by
  rw [runningSums_segment Delta.originLine between.originLine, List.forall_mem_cons]
  exact and_congr_left fun _ => ⟨fun h => by omega, fun h => by omega⟩

/-- The column of an origin is a word wherever a cursor is. -/
theorem originColumns_segment_iff (between : d.Between k k') (ts : List Token) :
    (∀ c ∈ runningSums k.originColumn.toNat
          ((rows (.segment d :: ts)).flatten.map (·.originColumn.toInt)),
        0 ≤ c ∧ c < 0x100000000) ↔
      ∀ c ∈ runningSums k'.originColumn.toNat ((rows ts).flatten.map (·.originColumn.toInt)),
        0 ≤ c ∧ c < 0x100000000 := by
  have hword := k'.originColumn.toNat_lt
  rw [runningSums_segment Delta.originColumn between.originColumn, List.forall_mem_cons]
  exact and_iff_right ⟨by omega, by omega⟩

theorem firstUse_segment_iff (between : d.Between k k') (uses : k.UsesFile k')
    (ts : List Token) :
    UsedInOrder k.sources.length ((runningSums k.source.toNat
        ((rows (.segment d :: ts)).flatten.map (·.source.toInt))).map Int.toNat) files.length ↔
      UsedInOrder k'.sources.length ((runningSums k'.source.toNat
        ((rows ts).flatten.map (·.source.toInt))).map Int.toNat) files.length := by
  rw [runningSums_segment Delta.source between.source, List.map_cons, Int.toNat_natCast,
    uses.usedInOrder_iff]

/-- A segment fits if its sums are in range and the tokens after it fit. -/
theorem fit_segment_iff (between : d.Between k k') (hline : k'.line = k.line)
    (uses : k.UsesFile k') {ts : List Token} :
    Fit lines files k (.segment d :: ts) ↔
      k.column ≤ k'.column ∧ k'.source.toNat < files.length ∧
        k'.originLine.toNat < 0xFFFFFFFF ∧ Fit lines files k' ts := by
  rw [fit_iff, fit_iff, length_rows_segment, hline, columnsFrom_segment_iff between,
    sources_segment_iff between, originLines_segment_iff between,
    originColumns_segment_iff between, firstUse_segment_iff between uses]
  constructor
  · rintro ⟨hlines, ⟨hle, hcolumns⟩, ⟨hsource, hsources⟩, ⟨horiginLine, horiginLines⟩, hrest⟩
    exact ⟨hle, hsource, horiginLine, hlines, hcolumns, hsources, horiginLines, hrest⟩
  · rintro ⟨hle, hsource, horiginLine, hlines, hcolumns, hsources, horiginLines, hrest⟩
    exact ⟨hlines, ⟨hle, hcolumns⟩, ⟨hsource, hsources⟩, ⟨horiginLine, horiginLines⟩, hrest⟩

end Token

/-! ## Tokens that fit are those of a route -/

/-- The tokens of a route fit. -/
theorem Route.fit {lines : UInt32} {k k' : Cursor} {ms : List Mapping} {ts : List Token}
    (route : Route lines k ms ts k') (hline : k.line ≤ lines)
    (hopened : k.opened = false → k.column = 0) (hfew : k'.sources.length < 0x100000000) :
    Token.Fit lines k'.sources k ts := by
  induction route with
  | nil => exact Token.fit_nil_iff.mpr ⟨hline, rfl⟩
  | newline h _ ih =>
      have hle := UInt32.lt_iff_toNat_lt.mp h
      have hnext := Cursor.toNat_nextLine h
      rw [Token.fit_newline_iff h]
      exact ih (UInt32.le_iff_toNat_le.mpr (by omega)) (fun _ => rfl) hfew
  | @segment k m ms d ts k' takes between route ih =>
      have hfit := ih hline (fun hclosed => by cases hclosed) hfew
      have hlength := route.sources_prefix.length_le
      have hpast := Nat.lt_of_le_of_lt hlength hfew
      have hfile := List.getElem?_eq_some_iff.mp (Cursor.getElem?_sources_past hpast)
      have hsource := Nat.lt_of_lt_of_le hfile.1 hlength
      have horigin := k.toNat_originLine_past takes.originLine
      have hword := m.origin.position.line.toNat_lt
      rw [Token.fit_segment_iff between rfl (Cursor.usesFile_past hpast)]
      refine ⟨?_, hsource, by omega, hfit⟩
      cases hk : k.opened with
      | true => exact takes.column hk
      | false =>
          rw [hopened hk]
          exact UInt32.zero_le

theorem exists_word {v : Int} (hzero : 0 ≤ v) (hlt : v < 0x100000000) :
    ∃ w : UInt32, (w.toNat : Int) = v := by
  have hsize : v.toNat < UInt32.size := by
    have : UInt32.size = 0x100000000 := rfl
    omega
  refine ⟨UInt32.ofNat v.toNat, ?_⟩
  rw [UInt32.toNat_ofNat_of_lt' hsize]
  omega

/-- The index of a file that was used before or is the next one. -/
theorem idxOf_of_prefix {used files : List String} {i : Nat} {file : String}
    (hseen : used <+: files) (hnodup : files.Nodup) (hfile : files[i]? = some file)
    (hi : i ≤ used.length) :
    used.idxOf file = i ∧ (if file ∈ used then used else used ++ [file]) <+: files := by
  obtain ⟨rest, rfl⟩ := hseen
  rcases Nat.lt_or_eq_of_le hi with hold | rfl
  · rw [List.getElem?_append_left hold] at hfile
    obtain ⟨hlt, rfl⟩ := List.getElem?_eq_some_iff.mp hfile
    rw [if_pos (List.getElem_mem hlt)]
    exact ⟨(List.nodup_append.mp hnodup).1.idxOf_getElem i hlt, List.prefix_append _ _⟩
  · rw [List.getElem?_append_right (Nat.le_refl _), Nat.sub_self] at hfile
    obtain ⟨rest, rfl⟩ : ∃ tail, rest = file :: tail := by
      cases rest with
      | nil => cases hfile
      | cons first tail =>
          cases hfile
          exact ⟨tail, rfl⟩
    have hnew : file ∉ used := fun h =>
      (List.nodup_append.mp hnodup).2.2 file h file List.mem_cons_self rfl
    rw [if_neg hnew]
    exact ⟨List.idxOf_eq_length hnew, ⟨rest, by rw [List.append_assoc]; rfl⟩⟩

/-- A segment that fits is the segment of a mapping. -/
theorem Token.Fit.exists_takes {lines : UInt32} {files : List String} {k : Cursor} {d : Delta}
    {ts : List Token} (fit : Fit lines files k (.segment d :: ts)) (hzero : k.line ≠ 0)
    (hseen : k.sources <+: files) (hnodup : files.Nodup) (hfew : files.length < 0x100000000) :
    ∃ m, k.Takes lines m ∧ d.Between k (k.past m) ∧ (k.past m).sources <+: files := by
  have hlines := fit.lines
  have hpos := length_rows_pos (.segment d :: ts)
  have hcolumns := columnsFrom_rows_segment_iff.mp fit.columns
  have hsources := fit.sources
  have horiginLines := fit.originLines
  have horiginColumns := fit.originColumns
  have hfirst := fit.firstUse
  rw [flatten_rows_segment, List.map_cons] at hsources horiginLines horiginColumns hfirst
  rw [forall_mem_runningSums_cons] at hsources horiginLines horiginColumns
  rw [runningSums, List.map_cons, usedInOrder_cons_iff] at hfirst
  -- The sums after the segment are the numbers of the mapping.
  obtain ⟨column, hcolumn⟩ := exists_word (by omega) hcolumns.2.1
  obtain ⟨originLine, horiginLine⟩ := exists_word
    (v := k.originLine.toNat + d.originLine.toInt + 1) (by omega) (by omega)
  obtain ⟨originColumn, horiginColumn⟩ := exists_word horiginColumns.1.1 horiginColumns.1.2
  obtain ⟨i, hi⟩ := Int.eq_ofNat_of_zero_le hsources.1.1
  have hlt : i < files.length := by omega
  obtain ⟨hidx, hfiles⟩ := idxOf_of_prefix hseen hnodup (List.getElem?_eq_getElem hlt) (by omega)
  have horiginZero : originLine ≠ 0 := by
    rintro rfl
    have : (0 : UInt32).toNat = 0 := rfl
    omega
  let m : Mapping := ⟨⟨k.line, column⟩, ⟨files[i], ⟨originLine, originColumn⟩, none⟩⟩
  have hpast := k.toNat_originLine_past (m := m) horiginZero
  have hsource := Cursor.toNat_source_past (k := k) (m := m)
    (Nat.lt_of_le_of_lt hfiles.length_le hfew)
  refine ⟨m, ⟨rfl, hzero, UInt32.le_iff_toNat_le.mpr (by omega), fun _ => ?_, horiginZero⟩,
    ⟨?_, ?_, ?_, ?_⟩, hfiles⟩
  · exact UInt32.le_iff_toNat_le.mpr (show k.column.toNat ≤ column.toNat by omega)
  · show d.column.toInt = (column.toNat : Int) - k.column.toNat
    omega
  · have hindex : k.sources.idxOf m.origin.file = i := hidx
    omega
  · have hline : m.origin.position.line.toNat = originLine.toNat := rfl
    omega
  · show d.originColumn.toInt = (originColumn.toNat : Int) - k.originColumn.toNat
    omega

/-- Tokens that fit have a route. -/
theorem Token.Fit.exists_route {lines : UInt32} {files : List String} {k : Cursor}
    {ts : List Token} (fit : Fit lines files k ts) (hzero : k.line ≠ 0)
    (hseen : k.sources <+: files) (hnodup : files.Nodup) (hfew : files.length < 0x100000000) :
    ∃ ms k', Route lines k ms ts k' ∧ k'.sources = files := by
  induction ts generalizing k with
  | nil =>
      obtain ⟨-, hlength⟩ := fit_nil_iff.mp fit
      exact ⟨[], k, .nil, hseen.eq_of_length hlength⟩
  | cons t ts ih =>
      cases t with
      | newline =>
          have hlt := fit.line_lt
          have hnext : k.nextLine.line ≠ 0 := by
            intro h
            have hone := Cursor.toNat_nextLine hlt
            rw [h] at hone
            cases hone
          obtain ⟨ms, k', route, hsources⟩ := ih ((fit_newline_iff hlt).mp fit) hnext hseen
          exact ⟨ms, k', .newline hlt route, hsources⟩
      | segment d =>
          obtain ⟨m, takes, between, hpast⟩ := fit.exists_takes hzero hseen hnodup hfew
          have uses := Cursor.usesFile_past (Nat.lt_of_le_of_lt hpast.length_le hfew)
          obtain ⟨-, -, -, hrest⟩ := (fit_segment_iff between rfl uses).mp fit
          obtain ⟨ms, k', route, hsources⟩ := ih hrest hzero hpast
          exact ⟨m :: ms, k', .segment takes between route, hsources⟩

/-! ## Canonical documents are those that are written -/

theorem Route.sources_nodup {lines : UInt32} {k k' : Cursor} {ms : List Mapping}
    {ts : List Token} (route : Route lines k ms ts k') (h : k.sources.Nodup) :
    k'.sources.Nodup := by
  induction route with
  | nil => exact h
  | newline _ _ ih => exact ih h
  | @segment k m ms d ts k' _ _ _ ih =>
      apply ih
      by_cases hfile : m.origin.file ∈ k.sources
      · rw [Cursor.sources_past_of_mem hfile]
        exact h
      · rw [Cursor.sources_past_of_not_mem hfile, ← List.concat_eq_append]
        exact List.Nodup.concat hfile h

/-- What it means that a document is canonical with the rows of some tokens. -/
theorem Document.canonicalBy_rows_iff {text : List Char} {doc : Document} {ts : List Token}
    (hlines : (text.splitOn '\n').length < 0x100000000) :
    doc.CanonicalBy text (Token.rows ts) ↔
      doc.version = 3 ∧ doc.names = [] ∧ doc.mappings = String.ofList (Token.text false ts) ∧
        Token.Closed ts ∧ doc.sources.Nodup ∧
        Token.Fit (lineCount text) doc.sources .start ts := by
  have hcount := toNat_lineCount hlines
  have hempty : doc.mappings = "" ↔ doc.mappings.toList = [] := by
    rw [← String.toList_inj]
    rfl
  have htext : doc.groups = (Token.rows ts).map rowText ↔
      doc.mappings = String.ofList (Token.text false ts) := by
    rw [groups, Token.splitOn_eq_map_rowText_iff, ← String.toList_inj, String.toList_ofList]
  have hone : Cursor.start.line.toNat = 1 := rfl
  have hfirst : ∀ is n, UsedInOrder 0 is n ↔ is.eraseDups = List.range n := by
    intro is n
    rw [UsedInOrder, List.range_zero, List.removeAll_nil, List.nil_append]
  constructor
  · intro canonical
    have hgroups := forall₂_spells_iff.mp canonical.spelling
    have hclosed := canonical.closed
    have hlength := canonical.lines
    rw [hempty, Token.splitOn_eq_map_rowText_iff.mp hgroups, hgroups] at hclosed
    rw [hgroups, List.length_map] at hlength
    exact ⟨canonical.version, canonical.names, htext.mp hgroups,
      (Token.closed_iff ts).mpr hclosed, canonical.sources_nodup,
      ⟨by omega, columnsFrom_zero_iff.mpr canonical.columns, canonical.sources,
        canonical.originLines, canonical.originColumns, (hfirst _ _).mpr canonical.firstUse⟩⟩
  · rintro ⟨hversion, hnames, hmappings, closed, hnodup, fit⟩
    have hgroups := htext.mpr hmappings
    have hlength := fit.lines
    refine ⟨hversion, hnames, ?_, ?_, forall₂_spells_iff.mpr hgroups,
      columnsFrom_zero_iff.mp fit.columns, fit.sources, fit.originLines, fit.originColumns,
      hnodup, (hfirst _ _).mp fit.firstUse⟩
    · rw [hempty, Token.splitOn_eq_map_rowText_iff.mp hgroups, hgroups]
      exact (Token.closed_iff ts).mp closed
    · rw [hgroups, List.length_map]
      omega

theorem Document.Canonical.exists_tokens {text : List Char} {doc : Document}
    (canonical : doc.Canonical text) : ∃ ts, doc.CanonicalBy text (Token.rows ts) := by
  obtain ⟨rows, by_rows⟩ := canonical
  cases rows with
  | nil =>
      have hgroups := forall₂_spells_iff.mp by_rows.spelling
      exact absurd hgroups (List.splitOn_ne_nil ';' _)
  | cons row rest =>
      obtain ⟨ts, hrows⟩ := Token.exists_rows_eq row rest
      exact ⟨ts, hrows ▸ by_rows⟩

/-- A document is canonical if some mappings are written as it. -/
theorem Document.exists_ofMappings_iff {text : List Char} {doc : Document}
    (hlines : (text.splitOn '\n').length < 0x100000000)
    (hfew : doc.sources.length < 0x100000000) :
    (∃ ms, Document.ofMappings text ms = .ok doc) ↔ doc.Canonical text := by
  have hcount := toNat_lineCount hlines
  have hpos := List.length_pos_iff.mpr (List.splitOn_ne_nil '\n' text)
  have hone : Cursor.start.line.toNat = 1 := rfl
  constructor
  · rintro ⟨ms, h⟩
    obtain ⟨ts, k, closed, route, rfl⟩ := Document.ofMappings_eq_ok_iff.mp h
    have hfit := route.fit (UInt32.le_iff_toNat_le.mpr (by omega)) (fun _ => rfl) hfew
    exact ⟨Token.rows ts, (canonicalBy_rows_iff hlines).mpr
      ⟨rfl, rfl, rfl, closed, route.sources_nodup List.nodup_nil, hfit⟩⟩
  · intro canonical
    obtain ⟨ts, by_rows⟩ := canonical.exists_tokens
    obtain ⟨hversion, hnames, hmappings, closed, hnodup, fit⟩ :=
      (canonicalBy_rows_iff hlines).mp by_rows
    have hstart : Cursor.start.line ≠ 0 := by decide
    obtain ⟨ms, k, route, hsources⟩ := fit.exists_route hstart List.nil_prefix hnodup hfew
    refine ⟨ms, Document.ofMappings_eq_ok_iff.mpr ⟨ts, k, closed, route, ?_⟩⟩
    rw [hsources, ← hversion, ← hnames, ← hmappings]

/-- **Canonical documents.**  The documents that are written for a text are the canonical
ones.  A canonical document that is read and written again stays as it is.  The text has fewer than
2^32 lines and the document fewer than 2^32 sources. -/
theorem Document.ofMappings_iff_canonical {text : List Char} {doc : Document}
    (hlines : (text.splitOn '\n').length < 0x100000000)
    (hfew : doc.sources.length < 0x100000000) :
    ((∃ ms, Document.ofMappings text ms = .ok doc) ↔ doc.Canonical text) ∧
      (doc.Canonical text →
        ∃ ms, doc.toMappings = .ok ms ∧ Document.ofMappings text ms = .ok doc) := by
  refine ⟨exists_ofMappings_iff hlines hfew, fun canonical => ?_⟩
  obtain ⟨ms, h⟩ := (exists_ofMappings_iff hlines hfew).mpr canonical
  have hfiles : Mapping.FewFiles ms := by
    rw [Mapping.FewFiles, ← sources_of_ofMappings h]
    exact hfew
  refine ⟨ms.map Mapping.unnamed, toMappings_of_ofMappings hfiles h, ?_⟩
  rw [ofMappings_map_unnamed, h]

/-- The canonical spelling of one mapping on the second line.  With a semicolon at the end the
document is still read as that mapping, but it is not canonical. -/
theorem Document.ofMappings_iff_canonical_second_line :
    Document.Canonical ['a', '\n', 'b'] ⟨3, ["a.css"], [], ";CAEA"⟩ ∧
    (∃ ms, Document.toMappings ⟨3, ["a.css"], [], ";CAEA"⟩ = .ok ms ∧
      Document.ofMappings ['a', '\n', 'b'] ms = .ok ⟨3, ["a.css"], [], ";CAEA"⟩) ∧
    Document.toMappings ⟨3, ["a.css"], [], ";CAEA;"⟩ = .ok [mappingAt 2 1 3 0 "a.css"] ∧
    ¬ Document.Canonical ['a', '\n', 'b'] ⟨3, ["a.css"], [], ";CAEA;"⟩ := by
  have hlines : (['a', '\n', 'b'].splitOn '\n').length < 0x100000000 := by decide
  have hwritten : Document.ofMappings ['a', '\n', 'b'] [mappingAt 2 1 3 0 "a.css"]
      = .ok ⟨3, ["a.css"], [], ";CAEA"⟩ := toOption_eq_some_iff.mp (by decide +kernel)
  have hread : Document.toMappings ⟨3, ["a.css"], [], ";CAEA;"⟩
      = .ok [mappingAt 2 1 3 0 "a.css"] := toOption_eq_some_iff.mp (by decide +kernel)
  have hfew : ["a.css"].length < 0x100000000 := by decide
  have hcanonical := (Document.ofMappings_iff_canonical hlines hfew).1.mp ⟨_, hwritten⟩
  refine ⟨hcanonical, (Document.ofMappings_iff_canonical hlines hfew).2 hcanonical, hread, ?_⟩
  rintro ⟨rows, by_rows⟩
  rcases by_rows.closed with hempty | hlast
  · exact absurd hempty (by decide)
  · exact hlast (by decide +kernel)

end TypedStyles
