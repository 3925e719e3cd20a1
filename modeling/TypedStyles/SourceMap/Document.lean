import TypedStyles.SourceMap.Mapping

/-!
# Source map documents

A document is a source map as it is stored: the source files, the names, and a
text of mappings that refers to both by index.
-/

namespace TypedStyles

/-- A source map as it is stored. -/
structure Document where
  /-- The version of the format.  Only version 3 is ever written. -/
  version : UInt32
  /-- The source files that mappings refer to by index. -/
  sources : List String
  /-- The names that mappings refer to by index. -/
  names : List String
  /-- The mappings.  Semicolons separate generated lines, and commas the
  segments of one line. -/
  mappings : String
deriving DecidableEq

/-- The version that is written, and the only one that is read from text. -/
def Document.supportedVersion : UInt32 := 3

end TypedStyles
