import TypedStyles.Proofs.FirstUse
import TypedStyles.Proofs.SourceMap.Route
import TypedStyles.Proofs.SourceMap.Sums

/-!
# Written mappings read back

A document that is written from mappings reads back as the same mappings
without their names (`toMappings_ofMappings`).  The proof goes along the route
of the writer.  A cursor of the writer holds the running sums of the reader
(`Cursor.totals`), every token keeps them equal, and the source file that a
segment refers to stays where it is first put (`Route.sources_prefix`).  The index
of the file is a word, so there must be fewer than 2^32 files (`Mapping.FewFiles`).

The sources of the document are the files of the mappings in the order of their
first use (`Route.sources_eq`).
-/

namespace TypedStyles

/-- A mapping without its name. -/
def Mapping.unnamed (m : Mapping) : Mapping := { m with origin := { m.origin with name := none } }

theorem Mapping.map_unnamed_eq_self {ms : List Mapping} (h : ∀ m ∈ ms, m.origin.name = none) :
    ms.map unnamed = ms := by
  have hunnamed : ∀ m ∈ ms, m.unnamed = m := by
    intro m hm
    rw [unnamed, ← h m hm]
  rw [List.map_congr_left hunnamed, List.map_id']

/-! ## Source files -/

/-- There are fewer than 2^32 files. -/
def Mapping.FewFiles (ms : List Mapping) : Prop :=
  (ms.map (·.origin.file)).eraseDups.length < 0x100000000

instance (ms : List Mapping) : Decidable (Mapping.FewFiles ms) :=
  inferInstanceAs (Decidable (_ < _))

/-- Mappings into one file are into few files. -/
theorem Mapping.fewFiles_of_forall {ms : List Mapping} {file : String}
    (h : ∀ m ∈ ms, m.origin.file = file) : FewFiles ms := by
  have hfiles : ∀ x ∈ ms.map (·.origin.file), x = file := by simpa using h
  rw [FewFiles, eraseDups_of_forall_eq hfiles]
  split
  · exact Nat.zero_lt_succ _
  · exact Nat.succ_lt_succ (Nat.zero_lt_succ _)

theorem Mapping.FewFiles.of_append {ms ns : List Mapping} (h : FewFiles (ms ++ ns)) :
    FewFiles ms := by
  rw [FewFiles, List.map_append, List.eraseDups_append, List.length_append] at h
  exact Nat.lt_of_le_of_lt (Nat.le_add_right _ _) h

namespace Cursor

theorem sources_past_of_mem {k : Cursor} {m : Mapping} (h : m.origin.file ∈ k.sources) :
    (k.past m).sources = k.sources := if_pos h

theorem sources_past_of_not_mem {k : Cursor} {m : Mapping} (h : m.origin.file ∉ k.sources) :
    (k.past m).sources = k.sources ++ [m.origin.file] := if_neg h

theorem sources_past_prefix (k : Cursor) (m : Mapping) :
    k.sources <+: (k.past m).sources := by
  by_cases h : m.origin.file ∈ k.sources
  · have hsame := sources_past_of_mem h
    exact hsame ▸ List.prefix_rfl
  · rw [sources_past_of_not_mem h]
    exact List.prefix_append _ _

theorem getElem?_sources_past_idxOf (k : Cursor) (m : Mapping) :
    (k.past m).sources[k.sources.idxOf m.origin.file]? = some m.origin.file := by
  by_cases h : m.origin.file ∈ k.sources
  · have hlt := List.idxOf_lt_length_of_mem h
    rw [sources_past_of_mem h, List.getElem?_eq_getElem hlt, List.getElem_idxOf hlt]
  · rw [sources_past_of_not_mem h, List.idxOf_eq_length h, List.getElem?_concat_length]

theorem toNat_source_past {k : Cursor} {m : Mapping}
    (h : (k.past m).sources.length < 0x100000000) :
    (k.past m).source.toNat = k.sources.idxOf m.origin.file := by
  obtain ⟨hlt, -⟩ := List.getElem?_eq_some_iff.mp (k.getElem?_sources_past_idxOf m)
  exact UInt32.toNat_ofNat_of_lt' (Nat.lt_trans hlt h)

/-- The file of a mapping stands at the index that the cursor holds after it. -/
theorem getElem?_sources_past {k : Cursor} {m : Mapping}
    (h : (k.past m).sources.length < 0x100000000) :
    (k.past m).sources[(k.past m).source.toNat]? = some m.origin.file := by
  rw [toNat_source_past h, getElem?_sources_past_idxOf]

theorem toNat_originLine_past (k : Cursor) {m : Mapping} (h : m.origin.position.line ≠ 0) :
    (k.past m).originLine.toNat + 1 = m.origin.position.line.toNat := by
  have hne : m.origin.position.line.toNat ≠ 0 := fun e => h (UInt32.toNat_inj.mp e)
  have hone : (1 : UInt32).toNat = 1 := rfl
  have hsub := UInt32.toNat_sub_of_le m.origin.position.line 1
    (UInt32.le_iff_toNat_le.mpr (by omega))
  have hdef : (k.past m).originLine = m.origin.position.line - 1 := rfl
  rw [hdef, hsub]
  omega

end Cursor

namespace Route

variable {lines : UInt32} {k k' : Cursor} {ms : List Mapping} {ts : List Token}

theorem sources_prefix (route : Route lines k ms ts k') : k.sources <+: k'.sources := by
  induction route with
  | nil => exact List.prefix_rfl
  | newline _ _ ih => exact ih
  | @segment k m _ _ _ _ _ _ _ ih => exact (k.sources_past_prefix m).trans ih

/-- The files that are new on a route are added in the order of first use. -/
theorem sources_eq (route : Route lines k ms ts k') :
    k'.sources
      = k.sources ++ ((ms.map (·.origin.file)).removeAll k.sources).eraseDups := by
  induction route with
  | nil => simp
  | newline _ _ ih => exact ih
  | @segment k m ms _ _ _ _ _ _ ih =>
      by_cases h : m.origin.file ∈ k.sources
      · rw [ih, Cursor.sources_past_of_mem h, List.map_cons, eraseDups_removeAll_cons_of_mem h]
      · rw [ih, Cursor.sources_past_of_not_mem h, List.map_cons,
          eraseDups_removeAll_cons_of_not_mem h, List.append_assoc, List.singleton_append]

end Route

/-! ## The sums of a reader -/

namespace Cursor

/-- The running sums that a reader has where the writer has this cursor. -/
def totals (k : Cursor) : Totals :=
  ⟨k.column.toNat, k.source.toNat, k.originLine.toNat, k.originColumn.toNat, 0⟩

theorem fits_totals (k : Cursor) : k.totals.Fits := by
  have hcolumn := k.column.toNat_lt
  have hsource := k.source.toNat_lt
  have horiginLine := k.originLine.toNat_lt
  have horiginColumn := k.originColumn.toNat_lt
  constructor <;> simp only [totals, IsLongWord] <;> omega

theorem toSums_start : start.totals.toSums = Sums.zero := rfl

theorem toSums_nextLine (k : Cursor) : k.nextLine.totals.toSums = k.totals.toSums.nextLine := rfl

end Cursor

theorem ofInt_add_toInt64 {v : Int32} {a b : Nat} (h : v.toInt = (b : Int) - a) :
    Int64.ofInt a + v.toInt64 = Int64.ofInt b := by
  have hb : (b : Int) = a + v.toInt := by omega
  rw [hb, Int64.ofInt_add, ← Int32.toInt_toInt64, Int64.ofInt_toInt]

/-- A delta between two cursors moves the sums of the one to those of the
other. -/
theorem Delta.Between.moveBy_toSums {d : Delta} {k k' : Cursor} (between : d.Between k k') :
    k.totals.toSums.moveBy d = k'.totals.toSums := by
  rw [Sums.moveBy, Sums.move, Totals.toSums, Totals.toSums, Sums.mk.injEq]
  exact ⟨ofInt_add_toInt64 between.column, ofInt_add_toInt64 between.source,
    ofInt_add_toInt64 between.originLine, ofInt_add_toInt64 between.originColumn, rfl⟩

/-- The mapping that a cursor has taken stands at the sums after it. -/
theorem Cursor.Takes.places {lines : UInt32} {k : Cursor} {m : Mapping}
    (takes : k.Takes lines m) {doc : Document} (h : (k.past m).sources <+: doc.sources)
    (hfew : doc.sources.length < 0x100000000) :
    (k.past m).totals.Places doc k.line.toNat m.unnamed where
  generatedLine := by rw [← takes.line]; rfl
  column := rfl
  file := by
    have hget := getElem?_sources_past (Nat.lt_of_le_of_lt h.length_le hfew)
    obtain ⟨hlt, hfile⟩ := List.getElem?_eq_some_iff.mp hget
    have hdoc := List.prefix_iff_getElem?.mp h _ hlt
    rw [hfile] at hdoc
    exact ⟨_, rfl, hdoc⟩
  originLine := by
    have := k.toNat_originLine_past takes.originLine
    show (m.origin.position.line.toNat : Int) = (k.past m).originLine.toNat + 1
    omega
  originColumn := rfl

/-- Reading the tokens of a route gives its mappings. -/
theorem Route.follow_eq {lines : UInt32} {k k' : Cursor} {ms : List Mapping} {ts : List Token}
    (route : Route lines k ms ts k') {doc : Document} (h : k'.sources <+: doc.sources)
    (hfew : doc.sources.length < 0x100000000) :
    k.totals.toSums.follow doc k.line.toNat ts = .ok (ms.map Mapping.unnamed) := by
  induction route with
  | nil => rfl
  | newline hline _ ih =>
      rw [Sums.follow, ← Cursor.toSums_nextLine, ← Cursor.toNat_nextLine hline, ih h]
  | @segment k m _ _ _ _ takes between route ih =>
      have places := takes.places (route.sources_prefix.trans h) hfew
      have hmapping := (k.past m).fits_totals.mapping_eq_ok_iff.mpr ⟨places, rfl⟩
      rw [Sums.follow, between.moveBy_toSums]
      exact bind_eq_ok_iff.mpr ⟨_, hmapping, bind_eq_ok_iff.mpr ⟨_, ih h, rfl⟩⟩

/-! ## Documents -/

/-- A document is written along a closed route from the first cursor. -/
theorem Document.ofMappings_eq_ok_iff {text : List Char} {ms : List Mapping} {doc : Document} :
    Document.ofMappings text ms = .ok doc ↔
      ∃ ts k, Token.Closed ts ∧ Route (lineCount text) .start ms ts k ∧
        doc = ⟨3, k.sources, [], String.ofList (Token.text false ts)⟩ := by
  rw [Document.ofMappings]
  constructor
  · intro h
    obtain ⟨⟨s, k⟩, hs, h⟩ := bind_eq_ok_iff.mp h
    obtain ⟨ts, closed, route, rfl⟩ := writeAll_eq_ok_iff.mp hs
    exact ⟨ts, k, closed, route, (Except.ok.inj h).symm⟩
  · rintro ⟨ts, k, closed, route, rfl⟩
    exact bind_eq_ok_iff.mpr ⟨_, writeAll_eq_ok_iff.mpr ⟨ts, closed, route, rfl⟩, rfl⟩

theorem Document.sources_of_ofMappings {text : List Char} {ms : List Mapping} {doc : Document}
    (h : Document.ofMappings text ms = .ok doc) :
    doc.sources = (ms.map (·.origin.file)).eraseDups := by
  obtain ⟨ts, k, -, route, rfl⟩ := Document.ofMappings_eq_ok_iff.mp h
  have hstart : Cursor.start.sources = [] := rfl
  rw [route.sources_eq, hstart, List.removeAll_nil, List.nil_append]

/-- A written document reads back. -/
theorem Document.toMappings_of_ofMappings {text : List Char} {ms : List Mapping} {doc : Document}
    (hfew : Mapping.FewFiles ms) (h : Document.ofMappings text ms = .ok doc) :
    doc.toMappings = .ok (ms.map Mapping.unnamed) := by
  have hsources := Document.sources_of_ofMappings h
  obtain ⟨ts, k, -, route, rfl⟩ := Document.ofMappings_eq_ok_iff.mp h
  rw [Document.toMappings_eq_follow String.toList_ofList, ← Cursor.toSums_start]
  exact route.follow_eq List.prefix_rfl (by rw [hsources]; exact hfew)

/-- Names are not written. -/
theorem Cursor.writeAll_map_unnamed (lines : UInt32) : ∀ (ms : List Mapping) (k : Cursor),
    k.writeAll lines (ms.map Mapping.unnamed) = k.writeAll lines ms
  | [], k => rfl
  | m :: ms, k => by
      have hhead : k.write lines m.unnamed = k.write lines m := rfl
      have hrest : ∀ k : Cursor, k.writeAll lines (ms.map Mapping.unnamed) = k.writeAll lines ms :=
        writeAll_map_unnamed lines ms
      simp only [List.map_cons, Cursor.writeAll, hhead, hrest]

theorem Document.ofMappings_map_unnamed (text : List Char) (ms : List Mapping) :
    Document.ofMappings text (ms.map Mapping.unnamed) = Document.ofMappings text ms := by
  rw [Document.ofMappings, Document.ofMappings, Cursor.writeAll_map_unnamed]

/-- **Round trip.**  A document that is written from mappings into fewer than 2^32 files reads
back as the mappings, without their names.  Its sources are the files of the mappings in the order
of first use.  The names decide nothing in it. -/
theorem Document.toMappings_ofMappings {text : List Char} {ms : List Mapping} {doc : Document}
    (hfew : Mapping.FewFiles ms) (h : Document.ofMappings text ms = .ok doc) :
    doc.toMappings = .ok (ms.map Mapping.unnamed) ∧
      doc.sources = (ms.map (·.origin.file)).eraseDups ∧ doc.names = [] ∧ doc.version = 3 ∧
      ∀ others : List Mapping, others.map Mapping.unnamed = ms.map Mapping.unnamed →
        Document.ofMappings text others = .ok doc := by
  refine ⟨toMappings_of_ofMappings hfew h, sources_of_ofMappings h, ?_, ?_, ?_⟩
  · obtain ⟨ts, k, -, -, rfl⟩ := Document.ofMappings_eq_ok_iff.mp h
    rfl
  · obtain ⟨ts, k, -, -, rfl⟩ := Document.ofMappings_eq_ok_iff.mp h
    rfl
  · intro others hothers
    rw [← Document.ofMappings_map_unnamed, hothers, Document.ofMappings_map_unnamed, h]

/-- Two source files in turn, one mapping with a name. -/
theorem Document.toMappings_ofMappings_two_files :
    Document.ofMappings ['\n', 'a', '\n', 'b'] [
        mappingAt 2 0 9 4 "b.css", mappingAt 2 1 1 0 "a.css",
        ⟨⟨3, 0⟩, ⟨"b.css", ⟨2, 7⟩, some "x"⟩⟩]
      = .ok ⟨3, ["b.css", "a.css"], [], ";AAQI,CCRJ;ADCO"⟩ ∧
    Document.toMappings ⟨3, ["b.css", "a.css"], [], ";AAQI,CCRJ;ADCO"⟩
      = .ok [mappingAt 2 0 9 4 "b.css", mappingAt 2 1 1 0 "a.css", mappingAt 3 0 2 7 "b.css"] := by
  have h : Document.ofMappings ['\n', 'a', '\n', 'b'] [
        mappingAt 2 0 9 4 "b.css", mappingAt 2 1 1 0 "a.css",
        ⟨⟨3, 0⟩, ⟨"b.css", ⟨2, 7⟩, some "x"⟩⟩]
      = .ok ⟨3, ["b.css", "a.css"], [], ";AAQI,CCRJ;ADCO"⟩ :=
    toOption_eq_some_iff.mp (by decide +kernel)
  have hfew : Mapping.FewFiles [mappingAt 2 0 9 4 "b.css", mappingAt 2 1 1 0 "a.css",
      ⟨⟨3, 0⟩, ⟨"b.css", ⟨2, 7⟩, some "x"⟩⟩] := by decide +kernel
  exact ⟨h, (Document.toMappings_ofMappings hfew h).1⟩

end TypedStyles
