import TypedStyles.Declaration.Options
import TypedStyles.Proofs.Stylesheet.Interchange

/-!
# Everything that is exchanged is read back

Options are always written in full, and they are read back from their text.
With stylesheets, mappings and origins this makes everything that programs
exchange as JSON (`interchange_reads_back`).
-/

namespace TypedStyles

open Json (Written fields?_record union?_record requiredField defaultField)

/-! ## Options -/

theorem DuplicatePolicy.ofJson?_toJson (policy : DuplicatePolicy) :
    ofJson? policy.toJson = some policy := by
  cases policy with
  | firstWins => rfl
  | lastWins => rfl

namespace MapDelivery

theorem written_toJson (d : MapDelivery) : Written 1 d.toJson := by
  cases d with
  | none => exact .record (by simpa using .text 0 "none")
  | sibling file => exact .record (by simpa using ⟨.text 0 "sibling", .text 0 file⟩)
  | inline => exact .record (by simpa using .text 0 "inline")

theorem ofJson?_toJson {room : Nat} (hroom : 1 ≤ room) (d : MapDelivery) :
    ofJson? room d.toJson = some d := by
  have hkept : d.toJson.kept room = true := (d.written_toJson.mono hroom).kept
  cases d with
  | none =>
      rw [ofJson?, toJson, union?_record (by simp) hkept]
      rfl
  | sibling file =>
      rw [ofJson?, toJson, union?_record (by simp) hkept]
      have hfile : siblingOfJson? (.record [("file", .text file)]) = some (.sibling file) := by
        rw [siblingOfJson?, fields?_record _ (by simp)]
        rfl
      exact hfile
  | inline =>
      rw [ofJson?, toJson, union?_record (by simp) hkept]
      rfl

end MapDelivery

namespace Options

theorem ofJson?_toJson (o : Options) : ofJson? o.toJson = some o := by
  have hdelivery := MapDelivery.ofJson?_toJson (by decide : 1 ≤ Json.nestingLimit - 1) o.delivery
  rw [ofJson?, toJson, fields?_record _ (by simp)]
  simp [layout, List.lookup_cons, requiredField, defaultField, DuplicatePolicy.ofJson?_toJson,
    hdelivery]

theorem written_toJson (o : Options) : Written 2 o.toJson := by
  refine .record ?_
  simp only [List.forall_mem_cons]
  exact ⟨.text 1 _, .text 1 _, o.delivery.written_toJson, by simp⟩

end Options

/-! ## Interchange -/

/-- **Everything that is exchanged is read back.**  A stylesheet, options, a delivery, a mapping and
an origin are read back from their texts, whatever strings they hold and whatever is missing in
them.  So the metadata of a stylesheet are the same from its text, and the same fault is found. -/
theorem interchange_reads_back :
    (∀ sheet : CompiledSheet, CompiledSheet.parse? sheet.toJson.render = some sheet) ∧
      (∀ o : Options, Options.parse? o.toJson.render = some o) ∧
      (∀ d : MapDelivery, (Json.read? d.toJson.render.toList).bind
        (MapDelivery.ofJson? Json.nestingLimit) = some d) ∧
      (∀ m : Mapping, (Json.read? m.toJson.render.toList).bind Mapping.ofJson? = some m) ∧
      (∀ o : Origin, (Json.read? o.toJson.render.toList).bind Origin.ofJson? = some o) ∧
      ∀ (sheet : CompiledSheet) (policy : DuplicatePolicy),
        Metadata.ofText policy sheet.toJson.render = sheet.normalize policy := by
  refine ⟨CompiledSheet.parse?_render, fun o => ?_, fun d => ?_, fun m => ?_, fun o => ?_,
    fun sheet policy => ?_⟩
  · rw [Options.parse?, o.written_toJson.read?_render, Option.bind_some, Options.ofJson?_toJson]
  · rw [d.written_toJson.read?_render, Option.bind_some, MapDelivery.ofJson?_toJson (by decide)]
  · rw [m.written_toJson.read?_render, Option.bind_some, Mapping.ofJson?_toJson]
  · rw [o.written_toJson.read?_render, Option.bind_some, Origin.ofJson?_toJson]
  · rw [Metadata.ofText, CompiledSheet.parse?_render]

end TypedStyles
