import TypedStyles.Proofs.Declaration.Anchors
import TypedStyles.Proofs.Declaration.Resolution
import TypedStyles.Proofs.SourceMap.Failure

/-!
# When there is no output

Every key has a line of its own inside the declaration and begins near the left
margin, and all mappings lead to one file (`Metadata.ahead_mappings`).  So a
declaration can only be refused for the positions of the names
(`Metadata.generate_fails_iff`): a position must have a line, and it must be
within reach of the position of the name before that has one.
-/

namespace TypedStyles

/-- The positions of the names that have one, in the order of their keys. -/
def Metadata.places (m : Metadata) : List Position := m.entries.filterMap (·.named.position)

/-! ## Positions and mappings -/

namespace Anchor

variable {source : String}

theorem map_position_mappings (source : String) (as : List Anchor) :
    (mappings source as).map (·.origin.position) = as.filterMap (·.declared) := by
  have hplace : ∀ a : Anchor, (a.mapping? source).map (·.origin.position) = a.declared := by
    intro a
    rw [mapping?, Option.map_map]
    exact Option.map_id'
  rw [mappings, List.map_filterMap]
  simp only [hplace]

/-- A mapping of anchors belongs to one of them, and so do the mappings before it. -/
theorem mappings_eq_append_cons_iff {as : List Anchor} {before after : List Mapping}
    {n : Mapping} :
    mappings source as = before ++ n :: after ↔
      ∃ as₁ a as₂, as = as₁ ++ a :: as₂ ∧ mappings source as₁ = before ∧
        a.mapping? source = some n ∧ mappings source as₂ = after := by
  rw [mappings, List.filterMap_eq_append_iff]
  constructor
  · rintro ⟨as₁, bs, rfl, hbefore, hbs⟩
    obtain ⟨skipped, a, as₂, rfl, hskipped, ha, hafter⟩ := List.filterMap_eq_cons_iff.mp hbs
    refine ⟨as₁ ++ skipped, a, as₂, (List.append_assoc _ _ _).symm, ?_, ha, hafter⟩
    rw [mappings, List.filterMap_append, hbefore, List.filterMap_eq_nil_iff.mpr hskipped,
      List.append_nil]
  · rintro ⟨as₁, a, as₂, rfl, hbefore, ha, hafter⟩
    refine ⟨as₁, a :: as₂, rfl, hbefore, ?_⟩
    rw [List.filterMap_cons_some ha]
    exact congrArg _ hafter

end Anchor

namespace Metadata

variable {m : Metadata} {source : String}

theorem filterMap_declared_emit_anchors (m : Metadata) (source : String)
    (recording : Recording) :
    (m.emit source recording).anchors.filterMap (·.declared) = m.places := by
  rw [places, ← map_entry_emit_anchors m source recording, List.filterMap_map]
  rfl

/-- No key stands on the first line. -/
theorem one_lt_line_of_mem_emit_anchors {recording : Recording} {a : Anchor}
    (ha : a ∈ (m.emit source recording).anchors)
    (hlines : ((m.emit source recording).text.toList.splitOn '\n').length < 0x100000000) :
    1 < a.generated.line.toNat := by
  have hone : Position.start.line.toNat = 1 := rfl
  have hcount := Piece.count_text_opening m.nameSpace
  rw [length_splitOn, toList_emit_text, pieces, List.flatMap_cons, List.count_append,
    hcount] at hlines
  rw [emit_anchors, pieces, Piece.anchorsFrom_cons_of_none rfl] at ha
  have hopening : (Position.start.after (Piece.opening m.nameSpace).text).line.toNat = 5 := by
    rw [Position.toNat_line_after (by rw [hcount]; decide), hcount, hone]
  have hlater := (Piece.pairwise_anchorsFrom
    (fun b hb => m.whole_of_mem_pieces b (List.mem_cons_of_mem _ hb))
    (by rw [hopening]; omega)).2 a ha
  rw [hopening] at hlater
  exact Nat.lt_of_lt_of_le (by decide) hlater

/-- The mappings of a declaration stand below its first line, each on a line of its own. -/
theorem ahead_mappings
    (hlines : ((m.emit source .empty).text.toList.splitOn '\n').length < 0x100000000) :
    Cursor.start.Ahead (lineCount (m.emit source .empty).text.toList) source
      (m.mappings source) := by
  refine ⟨fun n hn => ?_, Anchor.lineByLine_mappings (pairwise_emit_anchors hlines)⟩
  obtain ⟨a, ha, hmapping⟩ := List.mem_filterMap.mp hn
  obtain ⟨place, -, rfl⟩ := Anchor.mapping?_eq_some_iff.mp hmapping
  have hfirst := one_lt_line_of_mem_emit_anchors ha hlines
  obtain ⟨spaces, tail, hspaces, -, -, hline, hcolumn⟩ := line_of_mem_emit_anchors ha hlines
  obtain ⟨hlast, -⟩ := List.getElem?_eq_some_iff.mp hline
  refine ⟨rfl, UInt32.lt_iff_toNat_lt.mpr hfirst, ?_, ?_⟩
  · rw [UInt32.le_iff_toNat_le, toNat_lineCount hlines]
    show a.generated.line.toNat ≤ _
    omega
  · show a.generated.column.toNat < _
    omega

/-! ## When there is no output -/

/-- There is an output unless the mappings cannot be written.  What is written can be read. -/
theorem generate_eq_error_iff {o : Options} {e : SourceMapError} :
    m.generate o = .error e ↔
      ∃ cause, Cursor.start.writeAll (lineCount (m.emit o.sourceFile .empty).text.toList)
          (Mapping.sort (m.mappings o.sourceFile)) = .error cause ∧ e = .encoding cause := by
  rw [generate, snapshot_emit]
  constructor
  · intro h
    rcases bind_eq_error_iff.mp h with h | ⟨doc, hdoc, h⟩
    · obtain ⟨cause, hcause, rfl⟩ := mapError_eq_error_iff.mp h
      rcases bind_eq_error_iff.mp hcause with hwrite | ⟨r, -, hreturn⟩
      · exact ⟨cause, hwrite, rfl⟩
      · cases hreturn
    · rw [ofDocument_of_ofMappings (mapError_eq_ok_iff.mp hdoc)] at h
      cases h
  · rintro ⟨cause, hwrite, rfl⟩
    exact bind_eq_error_iff.mpr (Or.inl (mapError_eq_error_iff.mpr
      ⟨cause, bind_eq_error_iff.mpr (Or.inl hwrite), rfl⟩))

/-- **When there is no output.**  There is an output if and only if the position of every name has
a line and is within reach of the position before, where the beginning of the stylesheet comes
before the first.  Otherwise the error is about the first position for which this fails, and it is
one of the three that `Position.Fault` names: no other error of writing comes from a declaration,
and none of reading. -/
theorem generate_fails_iff {o : Options}
    (hlines : ((m.emit o.sourceFile .empty).text.toList.splitOn '\n').length < 0x100000000) :
    ((∃ out, m.generate o = .ok out) ↔
        (Position.start :: m.places).IsChain Position.WithinReach) ∧
      ∀ e, m.generate o = .error e ↔
        ∃ before a after place cause,
          (m.emit o.sourceFile .empty).anchors = before ++ a :: after ∧ a.declared = some place ∧
          (Position.start :: before.filterMap (·.declared)).IsChain Position.WithinReach ∧
          Position.Fault a.generated ((before.filterMap (·.declared)).getLastD .start) place cause ∧
          e = .encoding cause := by
  have ahead := ahead_mappings hlines
  have hsorted := Mapping.sort_eq_self ahead.lineByLine.sorted
  constructor
  · have hcount : UInt32.ofNat (m.lineFeeds + 1)
        = lineCount (m.emit o.sourceFile .empty).text.toList := by
      rw [lineCount, length_splitOn_emit]
    rw [exists_generate_iff, hcount, hsorted,
      ahead.exists_writeAll_iff (Cursor.at_start o.sourceFile), mappings,
      Anchor.map_position_mappings, filterMap_declared_emit_anchors]
  · intro e
    rw [generate_eq_error_iff, hsorted]
    simp only [ahead.writeAll_eq_error_iff (Cursor.at_start o.sourceFile)]
    constructor
    · rintro ⟨cause, ⟨before, n, after, hsplit, chain, fault⟩, rfl⟩
      obtain ⟨as₁, a, as₂, has, rfl, ha, -⟩ := Anchor.mappings_eq_append_cons_iff.mp hsplit
      obtain ⟨place, hplace, rfl⟩ := Anchor.mapping?_eq_some_iff.mp ha
      rw [Anchor.map_position_mappings] at chain fault
      exact ⟨as₁, a, as₂, place, cause, has, hplace, chain, fault, rfl⟩
    · rintro ⟨as₁, a, as₂, place, cause, has, hplace, chain, fault, rfl⟩
      have ha : a.mapping? o.sourceFile = some ⟨a.generated, ⟨o.sourceFile, place, none⟩⟩ :=
        Anchor.mapping?_eq_some_iff.mpr ⟨place, hplace, rfl⟩
      rw [← Anchor.map_position_mappings o.sourceFile] at chain fault
      exact ⟨cause, ⟨_, _, _,
        Anchor.mappings_eq_append_cons_iff.mpr ⟨as₁, a, as₂, has, rfl, ha, rfl⟩, chain, fault⟩, rfl⟩

end Metadata

/-- A column that is out of reach, behind a name without a position. -/
def distantMetadata : Metadata where
  nameSpace := "n"
  classes := [⟨"a", some ⟨7, 2⟩, [⟨"on", none⟩]⟩]
  stVars := [⟨"x", some ⟨1, 0x80000002⟩⟩, ⟨"y", some ⟨0, 0⟩⟩]
  cssVars := []
  keyframes := []

theorem Metadata.generate_fails_iff_distant :
    ((distantMetadata.emit "a.css" .empty).text.toList.splitOn '\n').length < 0x100000000 ∧
      distantMetadata.generate ⟨"a.css", .firstWins, .none⟩
        = .error (.encoding (.delta .originColumn 0x80000000)) ∧
      ∃ out, { distantMetadata with stVars := [⟨"x", some ⟨1, 0x80000001⟩⟩] }.generate
        ⟨"a.css", .firstWins, .none⟩ = .ok out := by
  have hlines :
      ((distantMetadata.emit "a.css" .empty).text.toList.splitOn '\n').length < 0x100000000 := by
    rw [length_splitOn_emit]
    decide
  have hanchors : (distantMetadata.emit "a.css" .empty).anchors
      = [⟨.styleClass, none, "a", ⟨6, 5⟩, some ⟨7, 2⟩⟩, ⟨.state, some "a", "on", ⟨7, 9⟩, none⟩] ++
        ⟨.stVar, none, "x", ⟨11, 5⟩, some ⟨1, 0x80000002⟩⟩ ::
          [⟨.stVar, none, "y", ⟨12, 5⟩, some ⟨0, 0⟩⟩] := by decide +kernel
  refine ⟨hlines, ?_, ?_⟩
  · exact ((generate_fails_iff (o := ⟨"a.css", .firstWins, .none⟩) hlines).2 _).mpr ⟨_, _, _, _, _,
      hanchors, rfl, by decide, .column (by decide) (by decide) (by decide), rfl⟩
  · refine (generate_fails_iff (o := ⟨"a.css", .firstWins, .none⟩) ?_).1.mpr (by decide)
    rw [length_splitOn_emit]
    decide

end TypedStyles
