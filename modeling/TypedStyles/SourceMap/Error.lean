import TypedStyles.SourceMap.Mapping
import TypedStyles.Text.Quoted

/-!
# Errors of source maps

Writing a source map fails with an `EncodingError` and reading one with a
`DecodingError`.  Each constructor is one cause.  `message` gives the wording.
-/

namespace TypedStyles

/-- A number of a mapping that a message can name. -/
inductive MappingField where
  | generatedLine
  | generatedColumn
  | sourceIndex
  | originLine
  | originColumn
deriving DecidableEq

/-- How messages call the number. -/
def MappingField.label : MappingField → String
  | .generatedLine => "generated line"
  | .generatedColumn => "generated column"
  | .sourceIndex => "source index"
  | .originLine => "original line"
  | .originColumn => "original column"

/-- A position as messages show it. -/
def Position.render (p : Position) : String :=
  toString p.line.toNat ++ ":" ++ toString p.column.toNat

/-- Why mappings cannot be written. -/
inductive EncodingError where
  /-- The generated line does not exist in a text of `lines` lines. -/
  | lineOutside (line lines : UInt32)
  /-- The line of the origin is zero, at this generated position. -/
  | originLineZero (generated : Position)
  /-- The mapping at this generated position comes before the one ahead of it. -/
  | unsorted (generated : Position)
  /-- A number is too far from the one it is written relative to. -/
  | delta (field : MappingField) (delta : Int)
deriving DecidableEq

/-- The wording of an encoding error. -/
def EncodingError.message : EncodingError → String
  | .lineOutside line lines =>
      "generated line " ++ toString line.toNat ++
        " is outside the declaration text (1..=" ++ toString lines.toNat ++ ")"
  | .originLineZero p => "original line 0 for generated position " ++ p.render
  | .unsorted p => "entries are not sorted at generated position " ++ p.render
  | .delta field d =>
      field.label ++ " delta " ++ toString d ++ " is outside the representable range"

/-- Why a source map cannot be read. -/
inductive DecodingError where
  /-- The document has a version other than the supported one. -/
  | unsupportedVersion (version : UInt32)
  /-- A segment has a byte that is not a digit. -/
  | invalidDigit (byte : UInt8) (segment : List Char)
  /-- A segment has a number that does not fit in 64 bits. -/
  | tooLarge (segment : List Char)
  /-- A segment ends inside a number. -/
  | unfinished (segment : List Char)
  /-- A segment has a count of numbers that means nothing. -/
  | fieldCount (segment : List Char) (count : Nat)
  /-- The document has no name of this index. -/
  | nameIndex (index : Int)
  /-- The document has no source file of this index. -/
  | sourceIndex (index : Int)
  /-- A number is not a 32-bit word. -/
  | outOfRange (field : MappingField) (value : Int)
deriving DecidableEq

/-- The wording of a decoding error.  A byte is shown as the character of its
number. -/
def DecodingError.message : DecodingError → String
  | .unsupportedVersion v => "unsupported source map version " ++ toString v.toNat
  | .invalidDigit b s =>
      "invalid base64 digit " ++ Quoted.char (Char.ofNat b.toNat) ++ " in segment " ++
        Quoted.text s
  | .tooLarge s => "value too large in segment " ++ Quoted.text s
  | .unfinished s => "segment " ++ Quoted.text s ++ " ends in the middle of a value"
  | .fieldCount s n => "segment " ++ Quoted.text s ++ " has " ++ toString n ++ " fields"
  | .nameIndex i => "name index " ++ toString i ++ " out of range"
  | .sourceIndex i => "source index " ++ toString i ++ " out of range"
  | .outOfRange field v => field.label ++ " " ++ toString v ++ " is negative or too large"

/-- Why a source map cannot be written or read. -/
inductive SourceMapError where
  | encoding (cause : EncodingError)
  | decoding (cause : DecodingError)
deriving DecidableEq

/-- The wording of an error of either kind. -/
def SourceMapError.message : SourceMapError → String
  | .encoding e => "source map encoding failed: " ++ e.message
  | .decoding e => "source map decoding failed: " ++ e.message

/-! ## Tests -/

example : (SourceMapError.encoding (.delta .originLine (-7))).message =
    "source map encoding failed: original line delta -7 is outside the representable range" := by
  decide +kernel
/-- The first byte of a character is shown as a character. -/
example : (DecodingError.invalidDigit 0xc3 ['é']).message =
    "invalid base64 digit 'Ã' in segment \"é\"" := by decide +kernel

end TypedStyles
