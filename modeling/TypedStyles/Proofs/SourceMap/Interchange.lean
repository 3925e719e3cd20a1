import Mathlib.Data.List.Basic
import TypedStyles.Proofs.Json.Records
import TypedStyles.SourceMap.Interchange

/-!
# Source maps are read back

Positions, mappings, origins and documents are read back from what is written
of them.  A document of the supported version is loaded from its text, and of
another version the version is reported (`Document.load_render`).  The address of
a document holds its text (`Document.textOfAddress?_address`).
-/

namespace TypedStyles

open Json (Written fields?_record requiredField optionalField)

namespace Position

theorem ofJson?_toJson (p : Position) : ofJson? p.toJson = some p := by
  rw [ofJson?, toJson, fields?_record _ (by simp)]
  simp [layout, List.lookup_cons, requiredField]

theorem written_toJson (p : Position) : Written 1 p.toJson := by
  refine .record ?_
  simp only [List.forall_mem_cons]
  exact ⟨.word 0 _, .word 0 _, by simp⟩

@[simp] theorem optionalField_map_toJson (p : Option Position) :
    optionalField ofJson? (p.map toJson) = some p :=
  Json.optionalField_map ofJson?_toJson (fun _ => nofun) p

end Position

namespace Mapping

theorem ofJson?_toJson (m : Mapping) : ofJson? m.toJson = some m := by
  rw [ofJson?, toJson, fields?_record _ (by simp)]
  simp [layout, List.lookup_cons, requiredField]

theorem written_toJson (m : Mapping) : Written 1 m.toJson := by
  refine .record ?_
  simp only [List.forall_mem_cons]
  exact ⟨.word 0 _, .word 0 _, .word 0 _, .word 0 _, .text 0 _, .textOrNull 0 _, by simp⟩

end Mapping

namespace Origin

theorem ofJson?_toJson (o : Origin) : ofJson? o.toJson = some o := by
  rw [ofJson?, toJson, fields?_record _ (by simp)]
  simp [layout, List.lookup_cons, requiredField]

theorem written_toJson (o : Origin) : Written 1 o.toJson := by
  refine .record ?_
  simp only [List.forall_mem_cons]
  exact ⟨.text 0 _, .word 0 _, .word 0 _, .textOrNull 0 _, by simp⟩

end Origin

namespace Document

theorem ofJson?_toJson (doc : Document) : ofJson? doc.toJson = some doc := by
  rw [ofJson?, toJson, fields?_record _ (by simp)]
  simp [layout, List.lookup_cons, requiredField]

theorem written_toJson (doc : Document) : Written 2 doc.toJson := by
  refine .record ?_
  simp only [List.forall_mem_cons]
  exact ⟨.word 1 _, .texts 0 _, .texts 0 _, .text 1 _, by simp⟩

/-- A document is loaded from its text if its version is the supported one. -/
theorem load_render (doc : Document) :
    load doc.render
      = if doc.version = supportedVersion then .ok doc
        else .error (.decoding (.unsupportedVersion doc.version)) := by
  rw [load, render, doc.written_toJson.read?_render, Option.bind_some, ofJson?_toJson]

theorem load_render_of_supported {doc : Document} (h : doc.version = supportedVersion) :
    load doc.render = .ok doc := by
  rw [load_render, if_pos h]

/-- The text that an address holds in base 64. -/
def textOfAddress? (address : String) : Option String := do
  let digits ← address.toList.dropPrefix? addressHead.toList
  let bytes ← Base64.decode? digits
  let text ← ofUtf8? bytes
  return String.ofList text

/-- The address of a document holds its text. -/
theorem textOfAddress?_address (doc : Document) :
    textOfAddress? doc.address = some doc.render := by
  have hdigits : doc.address.toList.dropPrefix? addressHead.toList
      = some (Base64.encode (utf8 doc.render.toList)) := by
    rw [address, String.toList_append, String.toList_ofList]
    exact List.dropPrefix?_append_of_beq _ (BEq.refl _)
  simp [textOfAddress?, hdigits, Base64.decode?_encode, ofUtf8?_utf8]

end Document

end TypedStyles
