import TypedStyles.Proofs.SourceMap.Vlq
import TypedStyles.SourceMap.Decoding

/-!
# Mappings as tokens

A text of mappings that holds a position in every segment is a list of tokens.
A token opens the next generated line or is a segment of four numbers, a
`Delta`.  `Token.text` writes tokens with the commas that stand between the
segments of one line.

The text is cut into lines as the tokens are (`splitOn_text`), and a line into
its segments (`segments_rowText`).  So reading the text is following the tokens
with running sums, one after the other (`toMappings_eq_follow`).
-/

namespace TypedStyles

/-! ## Deltas -/

/-- The numbers of a mapping, each relative to the same number of the mapping
before. -/
structure Delta where
  column : Int32
  source : Int32
  originLine : Int32
  originColumn : Int32
deriving DecidableEq

namespace Delta

/-- The numbers in the order in which they are written. -/
def numbers (d : Delta) : List Int64 :=
  [d.column.toInt64, d.source.toInt64, d.originLine.toInt64, d.originColumn.toInt64]

/-- The segment of a delta. -/
def text (d : Delta) : List Char := Vlq.encodeAll d.numbers

theorem text_ne_nil (d : Delta) : d.text ≠ [] := by
  intro h
  have hcolumn := (List.append_eq_nil_iff.mp h).1
  exact Vlq.encode_ne_nil _ hcolumn

theorem not_mem_text {c : Char} (h : Base64.value? c = none) (d : Delta) : c ∉ d.text := by
  intro hc
  obtain ⟨v, -, hv⟩ := List.mem_flatMap.mp hc
  exact Vlq.not_mem_encode h v hv

theorem comma_not_mem_text (d : Delta) : ',' ∉ d.text := not_mem_text (by decide +kernel) d

theorem semicolon_not_mem_text (d : Delta) : ';' ∉ d.text := not_mem_text (by decide +kernel) d

theorem toInt64_ne_minValue (v : Int32) : v.toInt64 ≠ Int64.minValue := by
  intro h
  have hv : v.toInt = Int64.minValue.toInt := by rw [← Int32.toInt_toInt64, h]
  have hmin : Int64.minValue.toInt = -0x8000000000000000 := rfl
  have := v.le_toInt
  omega

/-- A segment is read as the numbers of its delta. -/
theorem readSegment_text (d : Delta) : readSegment d.text = .ok d.numbers := by
  have h : d.numbers.map (fun v => Vlq.signed (Vlq.unsigned v)) = d.numbers := by
    simp [numbers, Vlq.signed_unsigned, toInt64_ne_minValue]
  rw [readSegment, text, Vlq.decode_encodeAll, h]
  rfl

end Delta

/-! ## Rows of deltas -/

/-- The text of a generated line: its segments with commas between them. -/
def rowText (row : List Delta) : List Char := [','].intercalate (row.map Delta.text)

/-- The text of further segments of a line that has one. -/
def furtherText (row : List Delta) : List Char := row.flatMap fun d => ',' :: d.text

theorem rowText_cons (d : Delta) (row : List Delta) :
    rowText (d :: row) = d.text ++ furtherText row := by
  induction row generalizing d with
  | nil => simp [rowText, furtherText]
  | cons e row ih =>
      have he := ih e
      simp only [rowText, furtherText, List.map_cons, List.flatMap_cons,
        List.intercalate_cons_cons] at he ⊢
      rw [he]
      simp

theorem splitOn_rowText {row : List Delta} (h : row ≠ []) :
    (rowText row).splitOn ',' = row.map Delta.text := by
  apply List.splitOn_intercalate
  · intro piece hpiece
    obtain ⟨d, -, rfl⟩ := List.mem_map.mp hpiece
    exact d.comma_not_mem_text
  · simpa using h

theorem rowText_eq_nil_iff {row : List Delta} : rowText row = [] ↔ row = [] := by
  cases row with
  | nil => simp [rowText]
  | cons d row => simp [rowText_cons, d.text_ne_nil]

theorem filter_ne_nil_map_text (row : List Delta) :
    (row.map Delta.text).filter (· ≠ []) = row.map Delta.text := by
  rw [List.filter_eq_self]
  intro piece hpiece
  obtain ⟨d, -, rfl⟩ := List.mem_map.mp hpiece
  simpa using d.text_ne_nil

theorem segments_rowText (row : List Delta) : segments (rowText row) = row.map Delta.text := by
  cases row with
  | nil => decide
  | cons d row => rw [segments, splitOn_rowText (by simp), filter_ne_nil_map_text]

/-- The comma ahead of further segments makes no segment. -/
theorem segments_furtherText (row : List Delta) :
    segments (furtherText row) = row.map Delta.text := by
  cases row with
  | nil => decide
  | cons d row =>
      have hcomma : furtherText (d :: row) = ',' :: rowText (d :: row) := by
        rw [rowText_cons]
        rfl
      rw [hcomma, segments, List.splitOn_cons_eq_if_modifyHead, beq_self_eq_true, if_pos rfl,
        splitOn_rowText (by simp), List.filter_cons_of_neg (by simp), filter_ne_nil_map_text]

/-- The comma ahead of a segment, where the line has one. -/
def comma : (opened : Bool) → List Char
  | false => []
  | true => [',']

/-- The text of segments where a line goes on. -/
def onText : (opened : Bool) → List Delta → List Char
  | false, row => rowText row
  | true, row => furtherText row

theorem onText_nil (opened : Bool) : onText opened [] = [] := by
  cases opened with
  | false => rfl
  | true => rfl

theorem onText_cons (opened : Bool) (d : Delta) (row : List Delta) :
    onText opened (d :: row) = comma opened ++ (d.text ++ furtherText row) := by
  cases opened with
  | false => exact rowText_cons d row
  | true => rfl

theorem segments_onText (opened : Bool) (row : List Delta) :
    segments (onText opened row) = row.map Delta.text := by
  cases opened with
  | false => exact segments_rowText row
  | true => exact segments_furtherText row

/-! ## Tokens -/

/-- A piece of a text of mappings. -/
inductive Token where
  /-- The next generated line opens. -/
  | newline
  | segment (d : Delta)
deriving DecidableEq

namespace Token

/-- The text of tokens.  A comma comes first where the line has a segment. -/
def text : (opened : Bool) → List Token → List Char
  | _, [] => []
  | _, .newline :: ts => ';' :: text false ts
  | opened, .segment d :: ts => comma opened ++ d.text ++ text true ts
termination_by structural _ ts => ts

/-- The deltas of every generated line. -/
def rows : List Token → List (List Delta)
  | [] => [[]]
  | .newline :: ts => [] :: rows ts
  | .segment d :: ts => (rows ts).modifyHead (d :: ·)
termination_by structural ts => ts

theorem exists_rows_eq_cons : ∀ ts : List Token, ∃ row rest, rows ts = row :: rest
  | [] => ⟨[], [], rfl⟩
  | .newline :: ts => ⟨[], rows ts, rfl⟩
  | .segment d :: ts => by
      obtain ⟨row, rest, h⟩ := exists_rows_eq_cons ts
      exact ⟨d :: row, rest, by rw [rows, h]; rfl⟩

/-- The texts of rows, where the first of them goes on a line. -/
def rowTexts (opened : Bool) : List (List Delta) → List (List Char)
  | [] => []
  | row :: rest => onText opened row :: rest.map rowText

theorem rowTexts_false (rows : List (List Delta)) : rowTexts false rows = rows.map rowText := by
  cases rows with
  | nil => rfl
  | cons row rest => rfl

theorem splitOn_append_of_not_mem {a : Char} {s : List Char} (h : a ∉ s) (t : List Char) :
    (s ++ t).splitOn a = (t.splitOn a).modifyHead (s ++ ·) := by
  induction s with
  | nil =>
      obtain ⟨piece, rest, hsplit⟩ := List.exists_cons_of_ne_nil (List.splitOn_ne_nil a t)
      simp [hsplit]
  | cons c s ih =>
      have hne : (c == a) = false := by
        have : a ≠ c := fun e => h (e ▸ List.mem_cons_self)
        simpa using this.symm
      rw [List.cons_append, List.splitOn_cons_eq_if_modifyHead, hne,
        ih fun hs => h (List.mem_cons_of_mem c hs), List.modifyHead_modifyHead]
      rfl

/-- The text of tokens is cut at its semicolons into the texts of its rows. -/
theorem splitOn_text (opened : Bool) (ts : List Token) :
    (text opened ts).splitOn ';' = rowTexts opened (rows ts) := by
  induction ts generalizing opened with
  | nil => rw [text, rows, rowTexts, onText_nil, List.splitOn_nil, List.map_nil]
  | cons t ts ih =>
      cases t with
      | newline =>
          rw [text, rows, List.splitOn_cons_eq_if_modifyHead, beq_self_eq_true, if_pos rfl, ih,
            rowTexts_false, rowTexts, onText_nil]
      | segment d =>
          obtain ⟨row, rest, hrows⟩ := exists_rows_eq_cons ts
          have hclean : ';' ∉ comma opened ++ d.text := by
            intro h
            rcases List.mem_append.mp h with hcomma | htext
            · cases opened with
              | false => simp [comma] at hcomma
              | true => simp [comma] at hcomma
            · exact d.semicolon_not_mem_text htext
          rw [text, splitOn_append_of_not_mem hclean, ih, rows, hrows, rowTexts,
            List.modifyHead_cons, List.modifyHead_cons, rowTexts, onText_cons, List.append_assoc]
          rfl

end Token

/-! ## Reading tokens -/

/-- The sums after a delta. -/
def Sums.moveBy (s : Sums) (d : Delta) : Sums :=
  s.move d.column.toInt64 d.source.toInt64 d.originLine.toInt64 d.originColumn.toInt64

/-- Read tokens one after the other, from the generated line of this number. -/
def Sums.follow (doc : Document) : (line : Nat) → Sums → List Token →
    Except DecodingError (List Mapping)
  | _, _, [] => .ok []
  | line, s, .newline :: ts => follow doc (line + 1) s.nextLine ts
  | line, s, .segment d :: ts => do
      let m ← (s.moveBy d).mapping doc line none
      let ms ← follow doc line (s.moveBy d) ts
      return m :: ms
termination_by structural _ _ ts => ts

/-- Read the rest of a line and then the lines after it. -/
def Sums.readOn (doc : Document) (line : Nat) (s : Sums) :
    List (List Char) → Except DecodingError (List Mapping)
  | [] => .ok []
  | rest :: texts => do
      let (ms, s) ← s.readLine doc line (segments rest)
      let more ← s.readLines doc (line + 1) texts
      return ms ++ more

theorem Sums.readLines_eq_readOn (doc : Document) (line : Nat) (s : Sums)
    (texts : List (List Char)) :
    s.readLines doc line texts = s.nextLine.readOn doc line texts := by
  cases texts with
  | nil => rfl
  | cons text texts => rfl

theorem Sums.read_text (doc : Document) (line : Nat) (s : Sums) (d : Delta) :
    s.read doc line d.text = do
      let m ← (s.moveBy d).mapping doc line none
      return (some m, s.moveBy d) := by
  rw [Sums.read, d.readSegment_text]
  rfl

/-- Lines written from tokens are read by following the tokens. -/
theorem Sums.readOn_rowTexts (doc : Document) (opened : Bool) (line : Nat) (s : Sums)
    (ts : List Token) :
    s.readOn doc line (Token.rowTexts opened (Token.rows ts)) = s.follow doc line ts := by
  induction ts generalizing opened line s with
  | nil =>
      cases opened with
      | false => rfl
      | true => rfl
  | cons t ts ih =>
      cases t with
      | newline =>
          have hnext := ih false (line + 1) s.nextLine
          rw [Token.rowTexts_false] at hnext
          rw [Token.rows, Token.rowTexts, Sums.readOn, segments_onText, Sums.follow, ← hnext,
            ← Sums.readLines_eq_readOn]
          cases h : s.readLines doc (line + 1) ((Token.rows ts).map rowText) with
          | error e => simp [Sums.readLine, bind, Except.bind, h]
          | ok ms => simp [Sums.readLine, bind, Except.bind, pure, Except.pure, h]
      | segment d =>
          obtain ⟨row, rest, hrows⟩ := Token.exists_rows_eq_cons ts
          have hrest := ih true line (s.moveBy d)
          rw [hrows, Token.rowTexts, Sums.readOn, segments_onText] at hrest
          rw [Token.rows, hrows, List.modifyHead_cons, Token.rowTexts, Sums.readOn,
            segments_onText, List.map_cons, Sums.readLine, Sums.read_text, Sums.follow, ← hrest]
          cases (s.moveBy d).mapping doc line none with
          | error e => rfl
          | ok m =>
              cases h : (s.moveBy d).readLine doc line (row.map Delta.text) with
              | error e => simp [bind, Except.bind, pure, Except.pure, h]
              | ok p =>
                  cases h' : p.2.readLines doc (line + 1) (rest.map rowText) with
                  | error e => simp [bind, Except.bind, pure, Except.pure, h, h']
                  | ok more => simp [bind, Except.bind, pure, Except.pure, h, h']

/-- A document written from tokens is read by following them. -/
theorem Document.toMappings_eq_follow {doc : Document} {ts : List Token}
    (h : doc.mappings.toList = Token.text false ts) :
    doc.toMappings = Sums.zero.follow doc 1 ts := by
  have hzero : Sums.zero.nextLine = Sums.zero := rfl
  rw [Document.toMappings, h, Token.splitOn_text, Sums.readLines_eq_readOn, hzero,
    Sums.readOn_rowTexts]

end TypedStyles
