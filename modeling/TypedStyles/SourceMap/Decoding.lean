import TypedStyles.SourceMap.Document
import TypedStyles.SourceMap.Error
import TypedStyles.SourceMap.Vlq

/-!
# Reading mappings

`Document.toMappings` reads the mappings of a document.  The text is cut at
semicolons into generated lines and every line at commas into segments.  Empty
segments are skipped.  The numbers of a segment are added to running sums, which
are words of 64 bits with a sign.  The sum of generated columns starts again from
zero on every line, and the other sums run through the whole document.

A segment of one number only moves the generated column.  A segment of four
numbers is a mapping, and one of five is a mapping with a name.  No other count
has a meaning.  A mapping must refer to a name and a source file of the
document, and its numbers must be 32-bit words.  Lines are stored counted from
zero, so the check is made on the line counted from one.
-/

namespace TypedStyles

/-- The running sums of a document. -/
structure Sums where
  /-- The generated column on the current line. -/
  column : Int64
  source : Int64
  /-- The line of the origin, counted from zero. -/
  originLine : Int64
  originColumn : Int64
  name : Int64

namespace Sums

/-- The sums before the first segment. -/
def zero : Sums := ⟨0, 0, 0, 0, 0⟩

/-- The sums at the beginning of the next line. -/
def nextLine (s : Sums) : Sums := { s with column := 0 }

/-- Move the generated column alone. -/
def moveColumn (s : Sums) (column : Int64) : Sums := { s with column := s.column + column }

/-- Add the four numbers of a mapping. -/
def move (s : Sums) (column source originLine originColumn : Int64) : Sums where
  column := s.column + column
  source := s.source + source
  originLine := s.originLine + originLine
  originColumn := s.originColumn + originColumn
  name := s.name

/-- Add the fifth number of a mapping with a name. -/
def moveName (s : Sums) (name : Int64) : Sums := { s with name := s.name + name }

end Sums

/-- The item of a list at an index that may be negative. -/
def itemAt? (xs : List String) (index : Int) : Option String :=
  if index < 0 then none else xs[index.toNat]?

/-- A sum as a 32-bit word. -/
def toWord (field : MappingField) (value : Int) : Except DecodingError UInt32 :=
  if 0 ≤ value ∧ value < 0x100000000 then .ok (UInt32.ofNat value.toNat)
  else .error (.outOfRange field value)

/-- The mapping at the sums `s`, on the generated line of this number. -/
def Sums.mapping (doc : Document) (line : Nat) (s : Sums) (name : Option String) :
    Except DecodingError Mapping := do
  let file ←
    match itemAt? doc.sources s.source.toInt with
    | some file => pure file
    | none => throw (.sourceIndex s.source.toInt)
  let generatedLine ← toWord .generatedLine line
  let generatedColumn ← toWord .generatedColumn s.column.toInt
  let originLine ← toWord .originLine (s.originLine + 1).toInt
  let originColumn ← toWord .originColumn s.originColumn.toInt
  return ⟨⟨generatedLine, generatedColumn⟩, ⟨file, ⟨originLine, originColumn⟩, name⟩⟩

/-- The error of a segment that is not a row of numbers. -/
def DecodingError.ofFault (segment : List Char) : Vlq.Fault → DecodingError
  | .invalidDigit b => .invalidDigit b segment
  | .tooLarge => .tooLarge segment
  | .unfinished => .unfinished segment

/-- The numbers of a segment. -/
def readSegment (segment : List Char) : Except DecodingError (List Int64) :=
  (Vlq.decode segment).mapError (DecodingError.ofFault segment)

/-- Read one segment: the mapping it makes, if any, and the sums after it. -/
def Sums.read (doc : Document) (line : Nat) (s : Sums) (segment : List Char) :
    Except DecodingError (Option Mapping × Sums) := do
  match ← readSegment segment with
  | [column] => return (none, s.moveColumn column)
  | [column, source, originLine, originColumn] =>
      let s := s.move column source originLine originColumn
      let m ← s.mapping doc line none
      return (some m, s)
  | [column, source, originLine, originColumn, name] =>
      let s := (s.move column source originLine originColumn).moveName name
      match itemAt? doc.names s.name.toInt with
      | none => throw (.nameIndex s.name.toInt)
      | some name =>
          let m ← s.mapping doc line (some name)
          return (some m, s)
  | values => throw (.fieldCount segment values.length)

/-- Read the segments of one line. -/
def Sums.readLine (doc : Document) (line : Nat) : Sums → List (List Char) →
    Except DecodingError (List Mapping × Sums)
  | s, [] => .ok ([], s)
  | s, segment :: rest => do
      let (m, s) ← s.read doc line segment
      let (ms, s) ← readLine doc line s rest
      return (m.toList ++ ms, s)
termination_by structural _ rest => rest

/-- The segments of a line that are not empty. -/
def segments (line : List Char) : List (List Char) :=
  (line.splitOn ',').filter (· ≠ [])

/-- Read lines in turn, the first of which has the number `line`. -/
def Sums.readLines (doc : Document) : (line : Nat) → Sums → List (List Char) →
    Except DecodingError (List Mapping)
  | _, _, [] => .ok []
  | line, s, text :: rest => do
      let (ms, s) ← s.nextLine.readLine doc line (segments text)
      let more ← readLines doc (line + 1) s rest
      return ms ++ more
termination_by structural _ _ rest => rest

/-- The mappings of a document, in the order in which they are stored. -/
def Document.toMappings (doc : Document) : Except DecodingError (List Mapping) :=
  Sums.zero.readLines doc 1 (doc.mappings.toList.splitOn ';')

/-! ## Tests -/

section Tests

/-- The positions of a document with one source file, if it can be read. -/
def positionsOf (mappings : String) : Option (List (Position × Position)) :=
  (Document.toMappings ⟨3, ["a.css"], [], mappings⟩).toOption.map
    fun ms => ms.map fun m => (m.generated, m.origin.position)

example : positionsOf ";KAAA;;KACQ" = some [(⟨2, 5⟩, ⟨1, 0⟩), (⟨4, 5⟩, ⟨2, 8⟩)] := by rfl
/-- A segment of one number moves the generated column. -/
example : positionsOf "C,CAAA" = some [(⟨1, 2⟩, ⟨1, 0⟩)] := by rfl
/-- The document has no second source file. -/
example : positionsOf "ACAA" = none := by rfl

end Tests

end TypedStyles
