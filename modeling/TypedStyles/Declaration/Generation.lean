import TypedStyles.Declaration.Emission
import TypedStyles.Declaration.Options
import TypedStyles.SourceMap.Encoding
import TypedStyles.SourceMap.Index

/-!
# Generating a declaration with its source map

`Metadata.generate` writes a declaration and the source map that leads each of
its keys back to the stylesheet.  Lookups go through the document, as a reader
of the stored map would make them.

The reference to the source map is a comment after the last line of the
declaration, so it moves no key.
-/

namespace TypedStyles

/-- A declaration with its source map. -/
structure Output where
  declaration : String
  sourceMap : Document
  /-- The anchors of the keys, first key first. -/
  anchors : List Anchor
  /-- How the declaration refers to the source map. -/
  delivery : MapDelivery
  /-- The source map, ready for lookups. -/
  index : MappingIndex
deriving DecidableEq

/-- Why there is no output. -/
inductive GenerationError where
  | metadata (cause : MetadataError)
  | sourceMap (cause : SourceMapError)
deriving DecidableEq

/-- The wording of an error. -/
def GenerationError.message : GenerationError → String
  | .metadata e => e.message
  | .sourceMap e => e.message

namespace Output

/-- The first anchor of this kind and name. -/
def anchor? (out : Output) (kind : SymbolKind) (name : String) : Option Anchor :=
  out.anchors.find? fun a => a.kind = kind ∧ a.name = name

/-- The first anchor of this state of this class. -/
def stateAnchor? (out : Output) (className state : String) : Option Anchor :=
  out.anchors.find? fun a => a.kind = .state ∧ a.name = state ∧ a.owner = some className

/-- The place in the stylesheet that the key of an anchor comes from. -/
def resolve? (out : Output) (a : Anchor) : Option Origin := out.index.origin? a.generated

/-- The text of the source map. -/
def sourceMapText (out : Output) : String := out.sourceMap.render

/-- What the declaration calls its source map, if it refers to it. -/
def mapAddress? (out : Output) : Option String :=
  match out.delivery with
  | .none => none
  | .sibling file => some file
  | .inline => some out.sourceMap.address

/-- The line that refers to a source map. -/
def referenceLine (address : String) : String := "//# sourceMappingURL=" ++ address ++ "\n"

/-- The declaration with the reference to its source map. -/
def referencedText (out : Output) : String :=
  match out.mapAddress? with
  | none => out.declaration
  | some address => out.declaration ++ referenceLine address

end Output

/-- Generate the declaration of a stylesheet and its source map. -/
def Metadata.generate (m : Metadata) (o : Options) : Except SourceMapError Output := do
  let emission := m.emit o.sourceFile .empty
  let document ←
    (Document.ofMappings emission.text.toList emission.recording.snapshot).mapError .encoding
  let index ← (MappingIndex.ofDocument document).mapError .decoding
  return ⟨emission.text, document, emission.anchors, o.delivery, index⟩

/-- Generate from what the compiler of a stylesheet reports. -/
def CompiledSheet.generate (sheet : CompiledSheet) (o : Options) :
    Except GenerationError Output := do
  let m ← (sheet.normalize o.duplicates).mapError .metadata
  (m.generate o).mapError .sourceMap

end TypedStyles
