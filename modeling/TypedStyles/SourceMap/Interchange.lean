import TypedStyles.Json.Record
import TypedStyles.SourceMap.Decoding
import TypedStyles.Text.Utf8

/-!
# Source maps in JSON

Positions, mappings, origins and documents are records in JSON.  A document has
three forms of delivery: a value, a text, and an address that holds the text in
base 64.

A document of any version can be read as a record.  `Document.load` also asks
for the supported version.
-/

namespace TypedStyles

open Json (Layout requiredField optionalField)

/-! ## Positions -/

namespace Position

/-- The fields of a position. -/
def layout : Layout := ⟨["line", "column"], 2⟩

/-- A position as a record. -/
def toJson (p : Position) : Json :=
  .record [("line", .word p.line), ("column", .word p.column)]

/-- Read a position. -/
def ofJson? (j : Json) : Option Position := do
  match ← layout.fields? j with
  | [line, column] =>
      let line ← requiredField Json.word? line
      let column ← requiredField Json.word? column
      return ⟨line, column⟩
  | _ => none

end Position

/-! ## Mappings and origins -/

namespace Mapping

/-- The fields of a mapping. -/
def layout : Layout :=
  ⟨["generatedLine", "generatedColumn", "originalLine", "originalColumn", "sourceFile", "name"], 6⟩

/-- A mapping as a record.  The two positions are written as four fields. -/
def toJson (m : Mapping) : Json :=
  .record [
    ("generatedLine", .word m.generated.line),
    ("generatedColumn", .word m.generated.column),
    ("originalLine", .word m.origin.position.line),
    ("originalColumn", .word m.origin.position.column),
    ("sourceFile", .text m.origin.file),
    ("name", .textOrNull m.origin.name)]

/-- Read a mapping. -/
def ofJson? (j : Json) : Option Mapping := do
  match ← layout.fields? j with
  | [generatedLine, generatedColumn, originLine, originColumn, file, name] =>
      let generatedLine ← requiredField Json.word? generatedLine
      let generatedColumn ← requiredField Json.word? generatedColumn
      let originLine ← requiredField Json.word? originLine
      let originColumn ← requiredField Json.word? originColumn
      let file ← requiredField Json.text? file
      let name ← optionalField Json.text? name
      return ⟨⟨generatedLine, generatedColumn⟩, ⟨file, ⟨originLine, originColumn⟩, name⟩⟩
  | _ => none

end Mapping

namespace Origin

/-- The fields of an origin. -/
def layout : Layout := ⟨["source", "line", "column", "name"], 4⟩

/-- An origin as a record. -/
def toJson (o : Origin) : Json :=
  .record [
    ("source", .text o.file),
    ("line", .word o.position.line),
    ("column", .word o.position.column),
    ("name", .textOrNull o.name)]

/-- Read an origin. -/
def ofJson? (j : Json) : Option Origin := do
  match ← layout.fields? j with
  | [file, line, column, name] =>
      let file ← requiredField Json.text? file
      let line ← requiredField Json.word? line
      let column ← requiredField Json.word? column
      let name ← optionalField Json.text? name
      return ⟨file, ⟨line, column⟩, name⟩
  | _ => none

end Origin

/-! ## Documents -/

/-- Why a text cannot be loaded as a document. -/
inductive LoadError where
  /-- The text is not a document in JSON. -/
  | malformed
  /-- The document is of no use. -/
  | decoding (cause : DecodingError)
deriving DecidableEq

namespace Document

/-- The fields of a document. -/
def layout : Layout := ⟨["version", "sources", "names", "mappings"], 4⟩

/-- A document as a record. -/
def toJson (doc : Document) : Json :=
  .record [
    ("version", .word doc.version),
    ("sources", .texts doc.sources),
    ("names", .texts doc.names),
    ("mappings", .text doc.mappings)]

/-- Read a document of any version. -/
def ofJson? (j : Json) : Option Document := do
  match ← layout.fields? j with
  | [version, sources, names, mappings] =>
      let version ← requiredField Json.word? version
      let sources ← requiredField (Json.list? Json.text?) sources
      let names ← requiredField (Json.list? Json.text?) names
      let mappings ← requiredField Json.text? mappings
      return ⟨version, sources, names, mappings⟩
  | _ => none

/-- The text of a document. -/
def render (doc : Document) : String := doc.toJson.render

/-- Read a text as a document of the supported version. -/
def load (text : String) : Except LoadError Document :=
  match (Json.read? text.toList).bind ofJson? with
  | none => .error .malformed
  | some doc =>
      if doc.version = supportedVersion then .ok doc
      else .error (.decoding (.unsupportedVersion doc.version))

/-- What stands before the base-64 text in the address of a document. -/
def addressHead : String := "data:application/json;charset=utf-8;base64,"

/-- The address that holds the whole document. -/
def address (doc : Document) : String :=
  addressHead ++ String.ofList (Base64.encode (utf8 doc.render.toList))

end Document

/-! ## Tests -/

section Tests

/-- A document without mappings. -/
def emptyDocument : Document := ⟨3, [], [], ""⟩

example : emptyDocument.render
    = "\x7b\"version\":3,\"sources\":[],\"names\":[],\"mappings\":\"\"\x7d" := by decide +kernel
example : Document.load emptyDocument.render = .ok emptyDocument := by rfl
example : Document.load "[2,[],[],\"\"]" = .error (.decoding (.unsupportedVersion 2)) := by rfl

end Tests

end TypedStyles
