import TypedStyles.Proofs.Declaration.Resolution
import TypedStyles.Proofs.SourceMap.Interchange
import TypedStyles.Proofs.Text.Base64

/-!
# Every delivery carries the same map

The source map of a declaration is delivered as a value, as a text, or inside
the declaration as an address.  All of them lead to the same document, and
lookups in it are those of the index that comes with the output
(`deliveries_carry_map`).
-/

namespace TypedStyles

/-- The line that refers to a source map follows the declaration. -/
theorem Output.referencedText_of_address {out : Output} {address : String}
    (h : out.mapAddress? = some address) :
    out.referencedText = out.declaration ++ "//# sourceMappingURL=" ++ address ++ "\n" := by
  have hline : referenceLine address = "//# sourceMappingURL=" ++ address ++ "\n" := rfl
  rw [referencedText, h]
  simp only [hline, String.append_assoc]

namespace Metadata

section Generated

variable {m : Metadata} {o : Options} {out : Output}

theorem version_generate (h : m.generate o = .ok out) :
    out.sourceMap.version = Document.supportedVersion := by
  obtain ⟨doc, hdoc, rfl⟩ := generate_eq_ok_iff.mp h
  obtain ⟨ts, k, -, -, rfl⟩ := Document.ofMappings_eq_ok_iff.mp hdoc
  rfl

/-- The source map is loaded from its text. -/
theorem load_sourceMapText (h : m.generate o = .ok out) :
    Document.load out.sourceMapText = .ok out.sourceMap :=
  Document.load_render_of_supported (version_generate h)

/-- The index of an output is that of its source map. -/
theorem ofDocument_generate (h : m.generate o = .ok out) :
    MappingIndex.ofDocument out.sourceMap = .ok out.index := by
  obtain ⟨doc, hdoc, rfl⟩ := generate_eq_ok_iff.mp h
  exact ofDocument_of_ofMappings hdoc

theorem origin?_sourceMap (h : m.generate o = .ok out) (p : Position) :
    out.sourceMap.origin? p = out.index.origin? p := by
  rw [Document.origin?, ofDocument_generate h]

theorem delivery_generate (h : m.generate o = .ok out) : out.delivery = o.delivery := by
  obtain ⟨doc, -, rfl⟩ := generate_eq_ok_iff.mp h
  rfl

end Generated

end Metadata

/-- **Every delivery carries the same map.**  A document of version 3 is loaded from its text, and
another version is refused.  The address of a document is a fixed beginning and the base-64 text of
the bytes of its text.  So the source map of a declaration is the one that is loaded from its
text, and the one that the address behind an inline declaration holds.  Lookups in it are those of
the index of the output. -/
theorem deliveries_carry_map :
    (∀ doc : Document, Document.load doc.render
      = if doc.version = 3 then .ok doc
        else .error (.decoding (.unsupportedVersion doc.version))) ∧
      (∀ doc : Document, ∃ digits : List Char,
        doc.address = "data:application/json;charset=utf-8;base64," ++ String.ofList digits ∧
        Base64.Padded digits ∧
        digits.length = 4 * (((utf8 doc.render.toList).length + 2) / 3) ∧
        Base64.decode? digits = some (utf8 doc.render.toList)) ∧
      ∀ (m : Metadata) (o : Options) (out : Output), m.generate o = .ok out →
        Document.load out.sourceMapText = .ok out.sourceMap ∧
        (∀ p : Position, out.sourceMap.origin? p = out.index.origin? p) ∧
        (o.delivery = .inline → ∃ address : String,
          out.referencedText = out.declaration ++ "//# sourceMappingURL=" ++ address ++ "\n" ∧
          (Document.textOfAddress? address).map Document.load = some (.ok out.sourceMap)) := by
  refine ⟨Document.load_render, fun doc => ?_, fun m o out h => ?_⟩
  · refine ⟨Base64.encode (utf8 doc.render.toList), ?_, Base64.padded_encode _,
      Base64.length_encode _, Base64.decode?_encode _⟩
    rw [Document.address, Document.addressHead]
  · refine ⟨Metadata.load_sourceMapText h, Metadata.origin?_sourceMap h, fun hinline => ?_⟩
    have haddress : out.mapAddress? = some out.sourceMap.address := by
      rw [Output.mapAddress?, Metadata.delivery_generate h, hinline]
    refine ⟨out.sourceMap.address, Output.referencedText_of_address haddress, ?_⟩
    rw [Document.textOfAddress?_address, Option.map_some]
    exact congrArg some (Metadata.load_sourceMapText h)

/-- A file whose name has a quote, a backslash, control characters, and wide characters. -/
def unusualFile : String := "é\"\\\u0001\n😀"

/-- A class with a position. -/
def placedClass : Metadata where
  nameSpace := "n"
  classes := [⟨"root", some ⟨2, 1⟩, []⟩]
  stVars := []
  cssVars := []
  keyframes := []

theorem deliveries_carry_map_unusual :
    ∃ out, placedClass.generate ⟨unusualFile, .firstWins, .inline⟩ = .ok out ∧
      Document.load out.sourceMapText = .ok out.sourceMap ∧
      out.sourceMap.origin? ⟨6, 9⟩ = some ⟨unusualFile, ⟨2, 1⟩, none⟩ ∧
      ∃ address : String,
        out.referencedText = out.declaration ++ "//# sourceMappingURL=" ++ address ++ "\n" ∧
        (Document.textOfAddress? address).map Document.load = some (.ok out.sourceMap) := by
  have hmappings : placedClass.mappings unusualFile = [mappingAt 6 5 2 1 unusualFile] := by
    decide +kernel
  obtain ⟨out, hout⟩ : ∃ out, placedClass.generate ⟨unusualFile, .firstWins, .inline⟩ = .ok out :=
    Metadata.exists_generate hmappings (by decide) (by decide +kernel)
  obtain ⟨hload, horigin, hinline⟩ := deliveries_carry_map.2.2 _ _ out hout
  refine ⟨out, hout, hload, ?_, hinline rfl⟩
  have hindex : out.index = ⟨[mappingAt 6 5 2 1 unusualFile]⟩ := by
    obtain ⟨doc, -, rfl⟩ := Metadata.generate_eq_ok_iff.mp hout
    rw [hmappings]
    exact congrArg MappingIndex.mk (Mapping.sort_eq_self (by decide))
  rw [horigin, hindex]
  rfl

end TypedStyles
