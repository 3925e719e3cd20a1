import TypedStyles.Proofs.Declaration.Delivery
import TypedStyles.Proofs.Declaration.Failure

/-!
# The name of the stylesheet

The name of the stylesheet that a declaration is generated from stands in the
sources of the source map and nowhere else.  Whatever the options are, two runs
over the same metadata fail with the same error, or they differ in this name
alone (`Metadata.generate_agree`).

A writer asks of two file names only whether they are the same, so a renaming
that keeps different names apart commutes with every step of it
(`Document.ofMappings_map_rename`).  A lookup does not ask even that
(`MappingIndex.origin?_map_rename`).
-/

namespace TypedStyles

/-! ## Renaming files -/

/-- An origin, its file renamed. -/
def Origin.rename (r : String → String) (x : Origin) : Origin := { x with file := r x.file }

/-- A mapping, the file of its origin renamed. -/
def Mapping.rename (r : String → String) (m : Mapping) : Mapping :=
  { m with origin := m.origin.rename r }

/-- A cursor, the files used so far renamed. -/
def Cursor.rename (r : String → String) (k : Cursor) : Cursor :=
  { k with sources := k.sources.map r }

/-- A document, its sources renamed. -/
def Document.rename (r : String → String) (doc : Document) : Document :=
  { doc with sources := doc.sources.map r }

theorem idxOf_map_of_injective {r : String → String} (hr : r.Injective) (xs : List String)
    (x : String) : (xs.map r).idxOf (r x) = xs.idxOf x := by
  have hsame : (fun y => y == r x) ∘ r = fun y => y == x := by
    funext y
    simp [hr.eq_iff]
  rw [List.idxOf, List.idxOf, List.findIdx_map, hsame]

/-! ## Lookups -/

section Lookups

variable (r : String → String) (ms : List Mapping)

theorem Mapping.sort_map_rename : sort (ms.map (rename r)) = (sort ms).map (rename r) :=
  (List.map_mergeSort (f := rename r) fun _ _ _ _ => rfl).symm

/-- A lookup takes the same mapping, whatever the files are. -/
theorem MappingIndex.origin?_map_rename (p : Position) :
    (ofMappings (ms.map (Mapping.rename r))).origin? p
      = ((ofMappings ms).origin? p).map (Origin.rename r) := by
  have hlast : (ofMappings (ms.map (Mapping.rename r))).last? p
      = ((ofMappings ms).last? p).map (Mapping.rename r) := by
    rw [ofMappings, Mapping.sort_map_rename, last?, List.takeWhile_map, List.getLast?_map]
    rfl
  rw [origin?, origin?, hlast]
  cases (ofMappings ms).last? p with
  | none => rfl
  | some m =>
      by_cases hline : m.generated.line = p.line
      · simp [Mapping.rename, hline]
      · simp [Mapping.rename, hline]

end Lookups

/-! ## Writing -/

section Writing

variable {r : String → String} {lines : UInt32}

namespace Cursor

theorem rename_start (r : String → String) : start.rename r = start := rfl

theorem toLine_rename (k : Cursor) (line : UInt32) :
    (k.rename r).toLine line = (k.toLine line).rename r := by
  by_cases h : k.line < line
  · simp [toLine, rename, h]
  · simp [toLine, rename, h]

/-- A file has the same index under another name. -/
theorem past_rename (hr : r.Injective) (k : Cursor) (m : Mapping) :
    (k.rename r).past (m.rename r) = (k.past m).rename r := by
  simp only [past, rename, Mapping.rename, Origin.rename, idxOf_map_of_injective hr,
    List.mem_map_of_injective hr, apply_ite (List.map r), List.map_append, List.map_singleton]

theorem separator_rename (k : Cursor) (line : UInt32) :
    (k.rename r).separator line = k.separator line := by
  rw [separator, separator, toLine_rename]
  rfl

theorem write_rename (hr : r.Injective) (k : Cursor) (m : Mapping) :
    (k.rename r).write lines (m.rename r)
      = (k.write lines m).map fun s => (s.1, s.2.rename r) := by
  have hcheck : (k.rename r).check lines (m.rename r) = k.check lines m := rfl
  have hsegment (before after : Cursor) :
      writeSegment (before.rename r) (after.rename r) = writeSegment before after := rfl
  have hline : (m.rename r).generated.line = m.generated.line := rfl
  simp only [write, hcheck, hline, toLine_rename, past_rename hr, hsegment, separator_rename]
  cases k.check lines m with
  | error e => rfl
  | ok _ =>
      cases writeSegment (k.toLine m.generated.line)
          ((k.toLine m.generated.line).past m) with
      | error e => rfl
      | ok segment => rfl

theorem writeAll_rename (hr : r.Injective) (ms : List Mapping) (k : Cursor) :
    (k.rename r).writeAll lines (ms.map (Mapping.rename r))
      = (k.writeAll lines ms).map fun s => (s.1, s.2.rename r) := by
  induction ms generalizing k with
  | nil => rfl
  | cons m ms ih =>
      rw [List.map_cons, writeAll, writeAll, write_rename hr]
      cases k.write lines m with
      | error e => rfl
      | ok head =>
          simp only [bind, Except.bind, Except.map, ih]
          cases head.2.writeAll lines ms with
          | error e => rfl
          | ok tail => rfl

end Cursor

/-- The document of mappings whose files are renamed.  Only its sources are others. -/
theorem Document.ofMappings_map_rename (hr : r.Injective) (text : List Char) (ms : List Mapping) :
    ofMappings text (ms.map (Mapping.rename r)) = (ofMappings text ms).map (rename r) := by
  rw [ofMappings, ofMappings, ← Cursor.rename_start r, Cursor.writeAll_rename hr,
    Cursor.rename_start]
  cases Cursor.start.writeAll (lineCount text) ms with
  | error e => rfl
  | ok s => rfl

end Writing

/-! ## Declarations -/

namespace Metadata

variable {m : Metadata} {o o₁ o₂ : Options} {out out₁ out₂ : Output}

theorem mappings_eq_nil_iff (source : String) : m.mappings source = [] ↔ m.places = [] := by
  rw [← filterMap_declared_emit_anchors m source .empty, ← Anchor.map_position_mappings source,
    List.map_eq_nil_iff]
  rfl

/-- The stylesheet is the only source, if a mapping leads to it. -/
theorem sources_generate (h : m.generate o = .ok out) :
    out.sourceMap.sources = if m.places = [] then [] else [o.sourceFile] := by
  obtain ⟨doc, hdoc, rfl⟩ := generate_eq_ok_iff.mp h
  have hfile : ∀ x ∈ (Mapping.sort (m.mappings o.sourceFile)).map (·.origin.file),
      x = o.sourceFile := by
    intro x hx
    obtain ⟨n, hn, rfl⟩ := List.mem_map.mp hx
    exact Anchor.file_of_mem_mappings (Mapping.mem_sort.mp hn)
  have hnil : (Mapping.sort (m.mappings o.sourceFile)).map (·.origin.file) = []
      ↔ m.places = [] := by
    rw [List.map_eq_nil_iff, ← List.length_eq_zero_iff, Mapping.sort, List.length_mergeSort,
      List.length_eq_zero_iff, mappings_eq_nil_iff]
  rw [Document.sources_of_ofMappings hdoc, eraseDups_of_forall_eq hfile]
  simp only [List.isEmpty_iff, hnil]

/-- The mappings into one file are those into another, renamed. -/
theorem mappings_eq_map_rename (m : Metadata) {r : String → String} {source other : String}
    (h : r other = source) : m.mappings source = (m.mappings other).map (Mapping.rename r) := by
  have hmapping : ∀ a : Anchor, a.mapping? source = (a.mapping? other).map (Mapping.rename r) := by
    intro a
    rw [Anchor.mapping?, Anchor.mapping?, Option.map_map]
    simp [Function.comp_def, Mapping.rename, Origin.rename, h]
  rw [mappings, mappings, m.emit_anchors_eq_emit_anchors source other .empty .empty,
    Anchor.mappings, Anchor.mappings, List.map_filterMap]
  exact List.filterMap_congr fun a _ => hmapping a

/-- The two names change places, so different names stay different. -/
theorem sort_mappings_eq_map_rename (m : Metadata) (source other : String) :
    Mapping.sort (m.mappings source)
      = (Mapping.sort (m.mappings other)).map (Mapping.rename (Equiv.swap other source)) := by
  rw [m.mappings_eq_map_rename (Equiv.swap_apply_left other source), Mapping.sort_map_rename]

/-- A run fails as a run under another name does. -/
theorem generate_eq_error_of_generate {e : SourceMapError} (h : m.generate o₁ = .error e) :
    m.generate o₂ = .error e := by
  obtain ⟨cause, hcause, rfl⟩ := generate_eq_error_iff.mp h
  refine generate_eq_error_iff.mpr ⟨cause, ?_, rfl⟩
  rw [emit_text_eq_emit_text m o₂.sourceFile o₁.sourceFile .empty .empty,
    sort_mappings_eq_map_rename m o₂.sourceFile o₁.sourceFile,
    ← Cursor.rename_start (Equiv.swap o₁.sourceFile o₂.sourceFile),
    Cursor.writeAll_rename (Equiv.injective _), hcause]
  rfl

end Metadata

/-! ## Two runs -/

/-- An output is another one up to the name of the stylesheet.  What a lookup finds is what the
other finds, in this file. -/
structure Output.AgreesIn (file : String) (out other : Output) : Prop where
  declaration : out.declaration = other.declaration
  anchors : out.anchors = other.anchors
  mappings : out.sourceMap.mappings = other.sourceMap.mappings
  origin? : ∀ p, out.index.origin? p = (other.index.origin? p).map ({ · with file := file })
  sourceMapOrigin? : ∀ p, out.sourceMap.origin? p
    = (other.sourceMap.origin? p).map ({ · with file := file })

namespace Metadata

variable {m : Metadata} {o₁ o₂ : Options} {out₁ out₂ : Output}

theorem agreesIn_generate (h₁ : m.generate o₁ = .ok out₁) (h₂ : m.generate o₂ = .ok out₂) :
    out₁.AgreesIn o₁.sourceFile out₂ := by
  have hindex (p : Position) : out₁.index.origin? p
      = (out₂.index.origin? p).map ({ · with file := o₁.sourceFile }) := by
    obtain ⟨doc₁, -, rfl⟩ := generate_eq_ok_iff.mp h₁
    obtain ⟨doc₂, -, rfl⟩ := generate_eq_ok_iff.mp h₂
    have hmappings : m.mappings o₁.sourceFile
        = (m.mappings o₂.sourceFile).map (Mapping.rename fun _ => o₁.sourceFile) :=
      m.mappings_eq_map_rename rfl
    rw [hmappings, MappingIndex.origin?_map_rename]
    rfl
  have hmappings : out₁.sourceMap.mappings = out₂.sourceMap.mappings := by
    obtain ⟨doc₁, hdoc₁, rfl⟩ := generate_eq_ok_iff.mp h₁
    obtain ⟨doc₂, hdoc₂, rfl⟩ := generate_eq_ok_iff.mp h₂
    rw [emit_text_eq_emit_text m o₁.sourceFile o₂.sourceFile .empty .empty,
      sort_mappings_eq_map_rename m o₁.sourceFile o₂.sourceFile,
      Document.ofMappings_map_rename (Equiv.injective _), hdoc₂] at hdoc₁
    rw [← Except.ok.inj hdoc₁]
    rfl
  refine ⟨?_, ?_, hmappings, hindex, fun p => ?_⟩
  · rw [declaration_generate h₁, declaration_generate h₂]
    exact m.emit_text_eq_emit_text _ _ _ _
  · rw [anchors_generate h₁, anchors_generate h₂]
    exact m.emit_anchors_eq_emit_anchors _ _ _ _
  · rw [origin?_sourceMap h₁, origin?_sourceMap h₂, hindex]

/-- **The name of the stylesheet.**  Under any two options there is no output for the same reason,
or there are outputs that agree in all but the name of the stylesheet.  This name is the only
source of the source map, or there is none if no name has a position. -/
theorem generate_agree (m : Metadata) (o₁ o₂ : Options) :
    (∃ e, m.generate o₁ = .error e ∧ m.generate o₂ = .error e) ∨
      ∃ out₁ out₂, m.generate o₁ = .ok out₁ ∧ m.generate o₂ = .ok out₂ ∧
        out₁.AgreesIn o₁.sourceFile out₂ ∧ out₂.AgreesIn o₂.sourceFile out₁ ∧
        out₁.sourceMap.sources = (if m.places = [] then [] else [o₁.sourceFile]) ∧
        out₂.sourceMap.sources = (if m.places = [] then [] else [o₂.sourceFile]) := by
  cases h₁ : m.generate o₁ with
  | error e => exact .inl ⟨e, rfl, generate_eq_error_of_generate h₁⟩
  | ok out₁ =>
      cases h₂ : m.generate o₂ with
      | error e =>
          rw [generate_eq_error_of_generate h₂] at h₁
          cases h₁
      | ok out₂ =>
          exact .inr ⟨out₁, out₂, rfl, rfl, agreesIn_generate h₁ h₂, agreesIn_generate h₂ h₁,
            sources_generate h₁, sources_generate h₂⟩

end Metadata

end TypedStyles
