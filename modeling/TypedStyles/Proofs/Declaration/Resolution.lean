import TypedStyles.Declaration.Generation
import TypedStyles.Proofs.Declaration.Lines
import TypedStyles.Proofs.SourceMap.Lookup
import TypedStyles.Proofs.SourceMap.RoundTrip

/-!
# Keys lead back to their names

A lookup in the source map of a declaration finds the key of its line
(`Metadata.origin?_generate`).  The mappings of the keys are written in the
order of the keys, since every key has a line of its own.  The document reads
back as the same mappings, and a lookup in them finds the mapping of the line or
nothing.

A key without a mapping leaves its line empty, so a lookup on it does not find
the key above.
-/

namespace TypedStyles

/-! ## The mappings of anchors -/

/-- The mappings of the anchors whose names have a position. -/
def Anchor.mappings (source : String) (as : List Anchor) : List Mapping :=
  as.filterMap (mapping? source)

namespace Anchor

variable {source : String}

theorem mapping?_eq_some_iff {a : Anchor} {m : Mapping} :
    a.mapping? source = some m ↔
      ∃ place, a.declared = some place ∧ m = ⟨a.generated, ⟨source, place, none⟩⟩ := by
  rw [mapping?, Option.map_eq_some_iff]
  constructor
  · rintro ⟨place, hplace, rfl⟩
    exact ⟨place, hplace, rfl⟩
  · rintro ⟨place, hplace, rfl⟩
    exact ⟨place, hplace, rfl⟩

theorem generated_of_mapping? {a : Anchor} {m : Mapping} (h : a.mapping? source = some m) :
    m.generated = a.generated := by
  obtain ⟨place, -, rfl⟩ := mapping?_eq_some_iff.mp h
  rfl

theorem file_of_mem_mappings {as : List Anchor} {m : Mapping} (h : m ∈ mappings source as) :
    m.origin.file = source := by
  obtain ⟨a, -, ha⟩ := List.mem_filterMap.mp h
  obtain ⟨place, -, rfl⟩ := mapping?_eq_some_iff.mp ha
  rfl

theorem name_of_mem_mappings {as : List Anchor} {m : Mapping} (h : m ∈ mappings source as) :
    m.origin.name = none := by
  obtain ⟨a, -, ha⟩ := List.mem_filterMap.mp h
  obtain ⟨place, -, rfl⟩ := mapping?_eq_some_iff.mp ha
  rfl

/-- Anchors on lines of their own have mappings on lines of their own. -/
theorem lineByLine_mappings {as : List Anchor}
    (h : as.Pairwise fun a b => a.generated.line < b.generated.line) :
    Mapping.LineByLine (mappings source as) := by
  apply List.Pairwise.filterMap (mapping? source) _ h
  intro a b hab m hm n hn
  rw [generated_of_mapping? hm, generated_of_mapping? hn]
  exact hab

end Anchor

/-! ## Outputs -/

namespace Metadata

/-- The mappings of the keys of a declaration. -/
def mappings (m : Metadata) (source : String) : List Mapping :=
  Anchor.mappings source (m.emit source .empty).anchors

theorem snapshot_emit (m : Metadata) (source : String) :
    (m.emit source .empty).recording.snapshot = Mapping.sort (m.mappings source) := by
  rw [Recording.snapshot, toList_emit_recording, Recording.toList_empty, List.nil_append]
  rfl

/-- A document that is written from the mappings of keys reads back as their index. -/
theorem ofDocument_of_ofMappings {m : Metadata} {source : String} {text : List Char}
    {doc : Document} (h : Document.ofMappings text (Mapping.sort (m.mappings source)) = .ok doc) :
    MappingIndex.ofDocument doc = .ok (.ofMappings (m.mappings source)) := by
  have hunnamed : (Mapping.sort (m.mappings source)).map Mapping.unnamed
      = Mapping.sort (m.mappings source) :=
    Mapping.map_unnamed_eq_self fun _ hm => Anchor.name_of_mem_mappings (Mapping.mem_sort.mp hm)
  have hfew : Mapping.FewFiles (Mapping.sort (m.mappings source)) :=
    Mapping.fewFiles_of_forall fun _ hm => Anchor.file_of_mem_mappings (Mapping.mem_sort.mp hm)
  have hread := Document.toMappings_of_ofMappings hfew h
  rw [hunnamed] at hread
  have hsorted := Mapping.sort_eq_self (Mapping.sorted_sort (m.mappings source))
  refine map_eq_ok_iff.mpr ⟨_, hread, ?_⟩
  rw [MappingIndex.ofMappings, MappingIndex.ofMappings, hsorted]

/-- When there is an output, and what it holds. -/
theorem generate_eq_ok_iff {m : Metadata} {o : Options} {out : Output} :
    m.generate o = .ok out ↔
      ∃ doc, Document.ofMappings (m.emit o.sourceFile .empty).text.toList
          (Mapping.sort (m.mappings o.sourceFile)) = .ok doc ∧
        out = ⟨(m.emit o.sourceFile .empty).text, doc, (m.emit o.sourceFile .empty).anchors,
          o.delivery, .ofMappings (m.mappings o.sourceFile)⟩ := by
  rw [generate, snapshot_emit]
  constructor
  · intro h
    obtain ⟨doc, hdoc, h⟩ := bind_eq_ok_iff.mp h
    obtain ⟨index, hindex, h⟩ := bind_eq_ok_iff.mp h
    have hwritten := mapError_eq_ok_iff.mp hdoc
    rw [mapError_eq_ok_iff, ofDocument_of_ofMappings hwritten] at hindex
    refine ⟨doc, hwritten, ?_⟩
    rw [Except.ok.inj hindex]
    exact (Except.ok.inj h).symm
  · rintro ⟨doc, hdoc, rfl⟩
    have hindex := ofDocument_of_ofMappings hdoc
    exact bind_eq_ok_iff.mpr ⟨doc, mapError_eq_ok_iff.mpr hdoc,
      bind_eq_ok_iff.mpr ⟨_, mapError_eq_ok_iff.mpr hindex, rfl⟩⟩

/-- There is an output if the mappings of the keys can be written. -/
theorem exists_generate_iff {m : Metadata} {o : Options} :
    (∃ out, m.generate o = .ok out) ↔
      ∃ s k, Cursor.start.writeAll (UInt32.ofNat (m.lineFeeds + 1))
        (Mapping.sort (m.mappings o.sourceFile)) = .ok (s, k) := by
  have hcount : lineCount (m.emit o.sourceFile .empty).text.toList
      = UInt32.ofNat (m.lineFeeds + 1) := by
    rw [lineCount, length_splitOn_emit]
  constructor
  · rintro ⟨out, h⟩
    obtain ⟨doc, hdoc, -⟩ := generate_eq_ok_iff.mp h
    rw [Document.ofMappings, hcount] at hdoc
    obtain ⟨⟨s, k⟩, hwritten, -⟩ := bind_eq_ok_iff.mp hdoc
    exact ⟨s, k, hwritten⟩
  · rintro ⟨s, k, hwritten⟩
    have hdoc : Document.ofMappings (m.emit o.sourceFile .empty).text.toList
        (Mapping.sort (m.mappings o.sourceFile)) = .ok ⟨3, k.sources, [], String.ofList s⟩ := by
      rw [Document.ofMappings, hcount, hwritten]
      rfl
    exact ⟨_, generate_eq_ok_iff.mpr ⟨_, hdoc, rfl⟩⟩

/-- There is an output if the mappings of the keys are sorted and can be written. -/
theorem exists_generate {m : Metadata} {o : Options} {ms : List Mapping}
    (hmappings : m.mappings o.sourceFile = ms) (hsorted : Mapping.Sorted ms)
    (hwritten :
      (Cursor.start.writeAll (UInt32.ofNat (m.lineFeeds + 1)) ms).toOption.isSome = true) :
    ∃ out, m.generate o = .ok out := by
  obtain ⟨⟨s, k⟩, h⟩ := Option.isSome_iff_exists.mp hwritten
  refine exists_generate_iff.mpr ⟨s, k, ?_⟩
  rw [hmappings, Mapping.sort_eq_self hsorted]
  exact toOption_eq_some_iff.mp h

section Generated

variable {m : Metadata} {o : Options} {out : Output}

theorem declaration_generate (h : m.generate o = .ok out) :
    out.declaration = (m.emit o.sourceFile .empty).text := by
  obtain ⟨doc, -, rfl⟩ := generate_eq_ok_iff.mp h
  rfl

theorem anchors_generate (h : m.generate o = .ok out) :
    out.anchors = (m.emit o.sourceFile .empty).anchors := by
  obtain ⟨doc, -, rfl⟩ := generate_eq_ok_iff.mp h
  rfl

theorem length_splitOn_declaration (h : m.generate o = .ok out) :
    (out.declaration.toList.splitOn '\n').length = m.lineFeeds + 1 := by
  rw [declaration_generate h, length_splitOn_emit]

theorem map_entry_anchors (h : m.generate o = .ok out) :
    out.anchors.map Anchor.entry = m.entries := by
  rw [anchors_generate h, map_entry_emit_anchors]

theorem pairwise_anchors (h : m.generate o = .ok out)
    (hlines : (out.declaration.toList.splitOn '\n').length < 0x100000000) :
    out.anchors.Pairwise fun a b => a.generated.line < b.generated.line := by
  rw [anchors_generate h]
  rw [declaration_generate h] at hlines
  exact pairwise_emit_anchors hlines

/-- A lookup finds the key of its line, if the key begins in time and its name has a position. -/
theorem origin?_eq_some_iff (h : m.generate o = .ok out)
    (hlines : (out.declaration.toList.splitOn '\n').length < 0x100000000) {p : Position}
    {origin : Origin} :
    out.index.origin? p = some origin ↔
      ∃ a ∈ out.anchors, a.generated.line = p.line ∧ a.generated.column ≤ p.column ∧
        ∃ place, a.declared = some place ∧ origin = ⟨o.sourceFile, place, none⟩ := by
  have hline : Mapping.LineByLine (Anchor.mappings o.sourceFile out.anchors) :=
    Anchor.lineByLine_mappings (pairwise_anchors h hlines)
  have hindex : out.index = ⟨Anchor.mappings o.sourceFile out.anchors⟩ := by
    obtain ⟨doc, -, hout⟩ := generate_eq_ok_iff.mp h
    have hmappings : m.mappings o.sourceFile = Anchor.mappings o.sourceFile out.anchors := by
      rw [mappings, ← anchors_generate h]
    have hofMappings : out.index = .ofMappings (m.mappings o.sourceFile) := by rw [hout]
    rw [hofMappings, hmappings, MappingIndex.ofMappings, Mapping.sort_eq_self hline.sorted]
  rw [hindex, MappingIndex.origin?_eq_some_iff hline]
  constructor
  · rintro ⟨n, hn, ⟨hnline, hcolumn⟩, rfl⟩
    obtain ⟨a, ha, hmapping⟩ := List.mem_filterMap.mp hn
    obtain ⟨place, hplace, rfl⟩ := Anchor.mapping?_eq_some_iff.mp hmapping
    exact ⟨a, ha, hnline, hcolumn, place, hplace, rfl⟩
  · rintro ⟨a, ha, haline, hcolumn, place, hplace, rfl⟩
    have hmapping : a.mapping? o.sourceFile = some ⟨a.generated, ⟨o.sourceFile, place, none⟩⟩ :=
      Anchor.mapping?_eq_some_iff.mpr ⟨place, hplace, rfl⟩
    exact ⟨_, List.mem_filterMap.mpr ⟨a, ha, hmapping⟩, ⟨haline, hcolumn⟩, rfl⟩

/-- Every key leads back to the position of its own name. -/
theorem resolve?_of_mem (h : m.generate o = .ok out)
    (hlines : (out.declaration.toList.splitOn '\n').length < 0x100000000) {a : Anchor}
    (ha : a ∈ out.anchors) :
    out.resolve? a = a.declared.map (⟨o.sourceFile, ·, none⟩) := by
  apply Option.ext
  intro origin
  rw [Output.resolve?, origin?_eq_some_iff h hlines, Option.map_eq_some_iff]
  constructor
  · rintro ⟨b, hb, hline, -, place, hplace, rfl⟩
    -- No other key stands on the line.
    have hsame : b = a := eq_of_pairwise_lt (pairwise_anchors h hlines) hb ha hline
    exact ⟨place, hsame ▸ hplace, rfl⟩
  · rintro ⟨place, hplace, rfl⟩
    exact ⟨a, ha, rfl, UInt32.le_refl _, place, hplace, rfl⟩

end Generated

end Metadata

/-- **Resolution.**  In a declaration of fewer than 2^32 lines every key leads back to the
position of its own name, and to nothing if the name has none.  A lookup at any position finds
the name whose key is on that line and does not begin after the position, if that name has a
position, and it finds nothing else.  The keys are those of all names, and each has its own
line. -/
theorem Metadata.resolve?_generate {m : Metadata} {o : Options} {out : Output}
    (h : m.generate o = .ok out)
    (hlines : (out.declaration.toList.splitOn '\n').length < 0x100000000) :
    (∀ a ∈ out.anchors, out.resolve? a = a.declared.map (⟨o.sourceFile, ·, none⟩)) ∧
      (∀ (p : Position) (origin : Origin), out.index.origin? p = some origin ↔
        ∃ a ∈ out.anchors, a.generated.line = p.line ∧ a.generated.column ≤ p.column ∧
          ∃ place, a.declared = some place ∧ origin = ⟨o.sourceFile, place, none⟩) ∧
      (∀ a ∈ out.anchors, a.Marks out.declaration.toList) ∧
      out.anchors.map Anchor.entry = m.entries ∧
      out.anchors.Pairwise fun a b => a.generated.line < b.generated.line := by
  refine ⟨fun a ha => resolve?_of_mem h hlines ha, fun p origin => origin?_eq_some_iff h hlines,
    fun a ha => ?_, map_entry_anchors h, pairwise_anchors h hlines⟩
  rw [declaration_generate h]
  rw [anchors_generate h] at ha
  exact marks_of_mem_emit_anchors ha

/-- A class with a quote and a line feed in its name, a state without a position, and one name
twice. -/
def unusualMetadata : Metadata where
  nameSpace := "n"
  classes := [⟨"a\"\n", some ⟨3, 2⟩, [⟨"", none⟩]⟩]
  stVars := [⟨"x", none⟩, ⟨"x", some ⟨1, 9⟩⟩]
  cssVars := []
  keyframes := []

theorem Metadata.resolve?_generate_unusual :
    ∃ out, unusualMetadata.generate ⟨"a.css", .firstWins, .none⟩ = .ok out ∧
      (out.declaration.toList.splitOn '\n').length < 0x100000000 ∧
      out.anchors.map (·.name) = ["a\"\n", "", "x", "x"] ∧
      out.anchors.map out.resolve?
        = [some ⟨"a.css", ⟨3, 2⟩, none⟩, none, none, some ⟨"a.css", ⟨1, 9⟩, none⟩] := by
  have hmappings : unusualMetadata.mappings "a.css"
      = [mappingAt 6 5 3 2 "a.css", mappingAt 12 5 1 9 "a.css"] := by decide +kernel
  obtain ⟨out, hout⟩ : ∃ out, unusualMetadata.generate ⟨"a.css", .firstWins, .none⟩ = .ok out :=
    Metadata.exists_generate hmappings (by decide) (by decide +kernel)
  have hlines : (out.declaration.toList.splitOn '\n').length < 0x100000000 := by
    rw [Metadata.length_splitOn_declaration hout]
    decide
  have hentries := Metadata.map_entry_anchors hout
  have hresolve := (Metadata.resolve?_generate hout hlines).1
  refine ⟨out, hout, hlines, ?_, ?_⟩
  · have hnames := congrArg (List.map (·.named.name)) hentries
    rw [List.map_map] at hnames
    exact hnames
  · have hplaces := congrArg
      (List.map fun e => e.named.position.map (⟨"a.css", ·, none⟩ : Position → Origin)) hentries
    rw [List.map_map] at hplaces
    rw [List.map_congr_left hresolve]
    exact hplaces

end TypedStyles
