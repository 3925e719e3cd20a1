import TypedStyles.SourceMap.Document
import TypedStyles.SourceMap.Error
import TypedStyles.SourceMap.Vlq

/-!
# Writing mappings

`Document.ofMappings` writes a list of mappings as a document for a generated
text.  A semicolon is written for every line feed passed, and a comma between
two mappings of one line.  A mapping is a segment of four numbers: the
generated column, the index of the source file, the line of the origin counted
from zero, and the column of the origin.  Each number is written relative to the same
number of the mapping before.  The generated column starts again from zero on
every line, and the other three never do.  A source file gets its index, a word
of 32 bits, where it is first used.  Names are not written.

The mappings must be sorted by generated position, must lie on lines of the
text, and their origins must have a line.  Every relative number must fit in
32 bits with a sign.  The first mapping that breaks a rule decides the error, and
within a mapping the rules are checked in this order.
-/

namespace TypedStyles

/-- What the next mapping is written relative to. -/
structure Cursor where
  /-- The generated line that is being written. -/
  line : UInt32
  /-- The line has a segment. -/
  opened : Bool
  /-- The generated column of the last segment of the line. -/
  column : UInt32
  /-- The index of the last source file. -/
  source : UInt32
  /-- The line of the last origin, counted from zero. -/
  originLine : UInt32
  originColumn : UInt32
  /-- The source files used so far, in the order of first use. -/
  sources : List String

namespace Cursor

/-- The cursor before the first mapping. -/
def start : Cursor := ⟨1, false, 0, 0, 0, 0, []⟩

/-- The mapping does not come after the mapping written last. -/
def Unsorted (k : Cursor) (m : Mapping) : Prop :=
  m.generated.line < k.line ∨
    m.generated.line = k.line ∧ k.opened = true ∧ m.generated.column < k.column

instance (k : Cursor) (m : Mapping) : Decidable (k.Unsorted m) :=
  inferInstanceAs (Decidable (_ ∨ _ ∧ _ ∧ _))

/-- Check where a mapping stands, for a text of `lines` lines. -/
def check (lines : UInt32) (k : Cursor) (m : Mapping) : Except EncodingError Unit :=
  if m.generated.line = 0 ∨ lines < m.generated.line then
    .error (.lineOutside m.generated.line lines)
  else if m.origin.position.line = 0 then .error (.originLineZero m.generated)
  else if k.Unsorted m then .error (.unsorted m.generated)
  else .ok ()

/-- The cursor at a line.  A line below opens without segments and at column
zero. -/
def toLine (k : Cursor) (line : UInt32) : Cursor :=
  if k.line < line then { k with line := line, opened := false, column := 0 } else k

/-- What stands between the last segment and a segment on `line`. -/
def separator (k : Cursor) (line : UInt32) : List Char :=
  List.replicate (line.toNat - k.line.toNat) ';' ++ if (k.toLine line).opened then [','] else []

/-- The cursor after a mapping on its line. -/
def past (k : Cursor) (m : Mapping) : Cursor where
  line := k.line
  opened := true
  column := m.generated.column
  source := .ofNat (k.sources.idxOf m.origin.file)
  originLine := m.origin.position.line - 1
  originColumn := m.origin.position.column
  sources := if m.origin.file ∈ k.sources then k.sources else k.sources ++ [m.origin.file]

end Cursor

/-- The digits of one number relative to the number before it. -/
def writeDelta (field : MappingField) (current previous : Nat) : Except EncodingError (List Char) :=
  let delta : Int := current - previous
  if -0x80000000 ≤ delta ∧ delta < 0x80000000 then .ok (Vlq.encode (Int64.ofInt delta))
  else .error (.delta field delta)

/-- The segment between two cursors of one line. -/
def writeSegment (before after : Cursor) : Except EncodingError (List Char) := do
  let column ← writeDelta .generatedColumn after.column.toNat before.column.toNat
  let source ← writeDelta .sourceIndex after.source.toNat before.source.toNat
  let originLine ← writeDelta .originLine after.originLine.toNat before.originLine.toNat
  let originColumn ← writeDelta .originColumn after.originColumn.toNat before.originColumn.toNat
  return column ++ source ++ originLine ++ originColumn

/-- Write one mapping: its text and the cursor after it. -/
def Cursor.write (lines : UInt32) (k : Cursor) (m : Mapping) :
    Except EncodingError (List Char × Cursor) := do
  k.check lines m
  let before := k.toLine m.generated.line
  let after := before.past m
  let segment ← writeSegment before after
  return (k.separator m.generated.line ++ segment, after)

/-- Write mappings in turn: their text and the cursor after the last. -/
def Cursor.writeAll (lines : UInt32) : Cursor → List Mapping →
    Except EncodingError (List Char × Cursor)
  | k, [] => .ok ([], k)
  | k, m :: ms => do
      let (head, k) ← k.write lines m
      let (tail, k) ← writeAll lines k ms
      return (head ++ tail, k)
termination_by structural _ ms => ms

/-- The document of some mappings into a generated text. -/
def Document.ofMappings (text : List Char) (ms : List Mapping) : Except EncodingError Document := do
  let (mappings, k) ← Cursor.start.writeAll (lineCount text) ms
  return ⟨supportedVersion, k.sources, [], String.ofList mappings⟩

/-! ## Tests -/

section Tests

/-- A mapping without a name. -/
def mappingAt (line column originLine originColumn : UInt32) (file : String) : Mapping :=
  ⟨⟨line, column⟩, ⟨file, ⟨originLine, originColumn⟩, none⟩⟩

/-- The mappings and sources of a document, if it can be written. -/
def written (text : String) (ms : List Mapping) : Option (String × List String) :=
  (Document.ofMappings text.toList ms).toOption.map fun d => (d.mappings, d.sources)

/-- Lines without mappings are kept as empty groups. -/
example : written "a\nb\nc\nd" [mappingAt 2 5 1 0 "a.css", mappingAt 4 5 2 8 "a.css"]
    = some (";KAAA;;KACQ", ["a.css"]) := by
  decide +kernel
/-- Source files are numbered in the order of first use. -/
example : written "1\n2\n3"
      [mappingAt 1 0 1 0 "b.css", mappingAt 2 0 1 0 "a.css", mappingAt 3 0 1 0 "b.css"]
    = some ("AAAA;ACAA;ADAA", ["b.css", "a.css"]) := by decide +kernel
/-- Columns may not go backwards within a line. -/
example : written "12345" [mappingAt 1 4 1 0 "a.css", mappingAt 1 2 1 0 "a.css"] = none := by
  decide +kernel

end Tests

end TypedStyles
