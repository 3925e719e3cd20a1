import TypedStyles.SourceMap.Decoding

/-!
# Looking up positions

An index holds the mappings of a document in the order of their generated
positions.  A lookup takes the last mapping that does not come after the
position, and finds its origin if the mapping is on the same line.
-/

namespace TypedStyles

/-- The mappings of a document, sorted for lookups. -/
structure MappingIndex where
  /-- The mappings in the order of their generated positions. -/
  mappings : List Mapping
deriving DecidableEq

namespace MappingIndex

/-- The index of some mappings. -/
def ofMappings (ms : List Mapping) : MappingIndex := ⟨Mapping.sort ms⟩

/-- The index of a document. -/
def ofDocument (doc : Document) : Except DecodingError MappingIndex :=
  doc.toMappings.map ofMappings

/-- The number of mappings. -/
def size (index : MappingIndex) : Nat := index.mappings.length

/-- The document has no mappings. -/
def isEmpty (index : MappingIndex) : Bool := index.mappings.isEmpty

/-- The last mapping that does not come after a position. -/
def last? (index : MappingIndex) (p : Position) : Option Mapping :=
  (index.mappings.takeWhile (·.generated ≤ p)).getLast?

/-- The origin of a generated position. -/
def origin? (index : MappingIndex) (p : Position) : Option Origin := do
  let m ← index.last? p
  if m.generated.line = p.line then some m.origin else none

end MappingIndex

/-- The origin of a generated position in a document.  A document that cannot
be read has none. -/
def Document.origin? (doc : Document) (p : Position) : Option Origin :=
  match MappingIndex.ofDocument doc with
  | .ok index => index.origin? p
  | .error _ => none

end TypedStyles
