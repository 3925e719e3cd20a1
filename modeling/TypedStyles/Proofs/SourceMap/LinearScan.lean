import Mathlib.Data.List.Induction
import Mathlib.Data.List.TakeWhile
import TypedStyles.Proofs.SourceMap.Lookup

/-!
# Lookups and a linear scan

A lookup in a document finds what a scan over its mappings finds
(`Document.origin?_scan`).  The scan goes through the mappings in the order in
which they are stored and keeps the nearest one so far.  It does not sort.

The mappings of a document need not be sorted.  They may go backwards within a
line, and some may share a position.  Of those the last one is found, in the
index since its sort is stable, and in the scan since a mapping takes the place
of one that is as near.  `Mapping.Nearest` says which mapping that is without
either of them, and there is one at most (`Mapping.Nearest.unique`).
-/

namespace TypedStyles

namespace Mapping

open MappingIndex (Reaches)

variable {p : Position} {ms : List Mapping} {m n : Mapping}

/-! ## The scan -/

/-- The nearest mapping so far, after a further mapping is met. -/
def nearer (p : Position) (best? : Option Mapping) (m : Mapping) : Option Mapping :=
  if Reaches p m ∧ ∀ best ∈ best?, best.generated.column ≤ m.generated.column then some m
  else best?

/-- Go through mappings for the one that is nearest to a position. -/
def scan (p : Position) (ms : List Mapping) : Option Mapping := ms.foldl (nearer p) none

/-- The mapping is the one that a position belongs to: no mapping on its line stands between it
and the position, and it is the last of those that share its place. -/
structure Nearest (p : Position) (ms : List Mapping) (m : Mapping) : Prop where
  line : m.generated.line = p.line
  column : m.generated.column ≤ p.column
  greatest : ∀ n ∈ ms, n.generated.line = p.line → n.generated.column ≤ p.column →
    n.generated.column ≤ m.generated.column
  last : ∃ before after, ms = before ++ m :: after ∧ ∀ n ∈ after, n.generated ≠ m.generated

theorem Nearest.reaches (h : Nearest p ms m) : Reaches p m := ⟨h.line, h.column⟩

theorem Nearest.mem (h : Nearest p ms m) : m ∈ ms := by
  obtain ⟨before, after, hsplit, -⟩ := h.last
  simp [hsplit]

/-- The last of the mappings that share a place is one mapping. -/
theorem Nearest.unique (hm : Nearest p ms m) (hn : Nearest p ms n) : m = n := by
  have hcolumn : m.generated.column = n.generated.column :=
    UInt32.le_antisymm (hn.greatest m hm.mem hm.line hm.column)
      (hm.greatest n hn.mem hn.line hn.column)
  have hplace : m.generated = n.generated := by
    have hline := hm.line.trans hn.line.symm
    show Position.mk m.generated.line m.generated.column = n.generated
    rw [hline, hcolumn]
  have hlast : ∀ x : Mapping, Nearest p ms x →
      (ms.filter (·.generated = x.generated)).getLast? = some x := by
    intro x hx
    obtain ⟨before, after, hsplit, hafter⟩ := hx.last
    have hnone : after.filter (·.generated = x.generated) = [] := by simpa using hafter
    rw [hsplit, List.filter_append, List.filter_cons_of_pos (by simp), hnone]
    exact List.getLast?_concat
  exact Option.some.inj ((hlast m hm).symm.trans (hplace ▸ hlast n hn))

/-- What finds the nearest mapping, and nothing only if no mapping is near, finds the nearest
mapping exactly. -/
theorem eq_some_iff_nearest {found? : Option Mapping}
    (hsome : ∀ n, found? = some n → Nearest p ms n)
    (hnone : found? = none → ∀ n ∈ ms, ¬ Reaches p n) : found? = some m ↔ Nearest p ms m := by
  constructor
  · exact hsome m
  · intro h
    cases hfound : found? with
    | none => exact absurd h.reaches (hnone hfound m h.mem)
    | some n => rw [(hsome n hfound).unique h]

theorem scan_concat (p : Position) (ms : List Mapping) (m : Mapping) :
    scan p (ms ++ [m]) = nearer p (scan p ms) m := by
  rw [scan, List.foldl_append]
  rfl

theorem not_reaches_of_scan (h : scan p ms = none) : ∀ n ∈ ms, ¬ Reaches p n := by
  induction ms using List.reverseRecOn with
  | nil => simp
  | append_singleton ms m ih =>
      rw [scan_concat, nearer] at h
      split at h
      next => cases h
      next hfar =>
        rw [h] at hfar
        have hm : ¬ Reaches p m := fun hm => hfar ⟨hm, by simp⟩
        exact List.forall_mem_append.mpr ⟨ih h, List.forall_mem_singleton.mpr hm⟩

theorem nearest_of_scan (h : scan p ms = some m) : Nearest p ms m := by
  induction ms using List.reverseRecOn generalizing m with
  | nil => cases h
  | append_singleton ms n ih =>
      rw [scan_concat, nearer] at h
      split at h
      next hnear =>
        obtain rfl := Option.some.inj h
        obtain ⟨hreaches, hbest⟩ := hnear
        refine ⟨hreaches.1, hreaches.2, fun x hx hline hcolumn => ?_, ms, [], rfl, by simp⟩
        rcases List.mem_append.mp hx with hx | hx
        · cases hscan : scan p ms with
          | none => exact absurd ⟨hline, hcolumn⟩ (not_reaches_of_scan hscan x hx)
          | some best =>
              exact UInt32.le_trans ((ih hscan).greatest x hx hline hcolumn) (hbest best hscan)
        · rw [List.mem_singleton.mp hx]
          exact UInt32.le_refl _
      next hfar =>
        -- The new mapping is not on the line, or it stands before the best one so far.
        have hm := ih h
        have hlt : Reaches p n → n.generated.column < m.generated.column := by
          intro hn
          rw [← UInt32.not_le]
          intro hle
          exact hfar ⟨hn, fun best hbest => Option.some.inj (h.symm.trans hbest) ▸ hle⟩
        obtain ⟨before, after, hsplit, hafter⟩ := hm.last
        refine ⟨hm.line, hm.column, fun x hx hline hcolumn => ?_,
          before, after ++ [n], by simp [hsplit], ?_⟩
        · rcases List.mem_append.mp hx with hx | hx
          · exact hm.greatest x hx hline hcolumn
          · obtain rfl := List.mem_singleton.mp hx
            exact UInt32.le_of_lt (hlt ⟨hline, hcolumn⟩)
        · refine List.forall_mem_append.mpr ⟨hafter, List.forall_mem_singleton.mpr fun hsame => ?_⟩
          have hcolumn := hlt (by rw [Reaches, hsame]; exact hm.reaches)
          rw [hsame] at hcolumn
          exact UInt32.lt_irrefl _ hcolumn

/-- The scan finds the nearest mapping. -/
theorem scan_eq_some_iff : scan p ms = some m ↔ Nearest p ms m :=
  eq_some_iff_nearest (fun _ => nearest_of_scan) not_reaches_of_scan

/-! ## The index -/

/-- Behind the first of sorted mappings that comes after a position, all do. -/
theorem Sorted.not_le_of_mem_dropWhile (h : Sorted ms) :
    ∀ n ∈ ms.dropWhile (·.generated ≤ p), ¬ n.generated ≤ p := by
  induction ms with
  | nil => simp
  | cons m ms ih =>
      obtain ⟨hm, hms⟩ := List.pairwise_cons.mp h
      by_cases hle : m.generated ≤ p
      · rw [List.dropWhile_cons_of_pos (by simpa using hle)]
        exact ih hms
      · rw [List.dropWhile_cons_of_neg (by simpa using hle)]
        refine List.forall_mem_cons.mpr ⟨hle, fun n hn hnp => ?_⟩
        exact hle (Position.le_trans (hm n hn) hnp)

/-- The last mapping that a position reaches in sorted order is the nearest one. -/
theorem nearest_of_getLast?_sort
    (h : ((sort ms).filter fun n => Reaches p n).getLast? = some m) : Nearest p ms m := by
  obtain ⟨init, hinit⟩ := List.getLast?_eq_some_iff.mp h
  have hsorted : Sorted (init ++ [m]) := hinit ▸ (sorted_sort ms).filter _
  have hmem : ∀ n, n ∈ init ++ [m] ↔ n ∈ ms ∧ Reaches p n := by
    intro n
    rw [← hinit, List.mem_filter, mem_sort, decide_eq_true_eq]
  obtain ⟨-, hline, hcolumn⟩ := (hmem m).mp (by simp)
  refine ⟨hline, hcolumn, fun n hn hnline hncolumn => ?_, ?_⟩
  · rcases List.mem_append.mp ((hmem n).mpr ⟨hn, hnline, hncolumn⟩) with hn | hn
    · rcases (List.pairwise_append.mp hsorted).2.2 n hn m (by simp) with hlt | ⟨-, hle⟩
      · exact absurd (hnline.trans hline.symm) (UInt32.ne_of_lt hlt)
      · exact hle
    · rw [List.mem_singleton.mp hn]
      exact UInt32.le_refl _
  · -- All mappings of this place reach the position, and the sort keeps their order.
    have hplace : ms.filter (·.generated = m.generated)
        = init.filter (·.generated = m.generated) ++ [m] := by
      have hall : (sort ms).filter (·.generated = m.generated)
          = (init ++ [m]).filter (·.generated = m.generated) := by
        rw [← hinit, List.filter_filter]
        apply List.filter_congr
        intro n _
        by_cases hn : n.generated = m.generated
        · simp [Reaches, hn, hline, hcolumn]
        · simp [hn]
      rw [← filter_sort, hall, List.filter_append]
      simp
    obtain ⟨before, rest, rfl, -, hrest⟩ := List.filter_eq_append_iff.mp hplace
    obtain ⟨skipped, after, rfl, -, -, hafter⟩ := List.filter_eq_cons_iff.mp hrest
    exact ⟨before ++ skipped, after, by simp, by simpa using hafter⟩

end Mapping

/-- A lookup in the index of some mappings finds what the scan finds. -/
theorem MappingIndex.origin?_ofMappings (ms : List Mapping) (p : Position) :
    (ofMappings ms).origin? p = (Mapping.scan p ms).map (·.origin) := by
  rw [ofMappings, origin?_eq (Mapping.sorted_sort ms)]
  congr 1
  apply Option.ext
  intro m
  rw [Mapping.scan_eq_some_iff]
  refine Mapping.eq_some_iff_nearest (fun _ => Mapping.nearest_of_getLast?_sort)
    fun hnone n hn => ?_
  have hfar := List.filter_eq_nil_iff.mp (List.getLast?_eq_none_iff.mp hnone)
  simpa using hfar n (Mapping.mem_sort.mpr hn)

/-- The mappings of an index divide at a position, and a lookup begins with the last one before
the division. -/
theorem MappingIndex.exists_division (ms : List Mapping) (p : Position) :
    ∃ before after, (ofMappings ms).mappings = before ++ after ∧
      (∀ n ∈ before, n.generated ≤ p) ∧ (∀ n ∈ after, ¬ n.generated ≤ p) ∧
      (ofMappings ms).last? p = before.getLast? := by
  refine ⟨_, _, List.takeWhile_append_dropWhile.symm, fun n hn => ?_,
    (Mapping.sorted_sort ms).not_le_of_mem_dropWhile, rfl⟩
  simpa using List.mem_takeWhile_imp hn

/-! ## Documents -/

/-- **Lookups are a linear scan.**  In a document that can be read, a lookup finds the origin of
the nearest mapping, which is what a scan over the mappings as they are stored finds.  It finds
nothing if no mapping on the line stands at or before the column.  Lookups in the document are
lookups in its index.  The mappings of the index divide at every position into those that do not
come after it and those that do, and a lookup looks at the last mapping before the division.  In a
document that cannot be read every lookup finds nothing. -/
theorem Document.origin?_scan (doc : Document) :
    (∃ ms index, doc.toMappings = .ok ms ∧ MappingIndex.ofDocument doc = .ok index ∧ ∀ p,
      index.origin? p = (Mapping.scan p ms).map (·.origin) ∧
      (∀ origin, index.origin? p = some origin ↔ ∃ m, Mapping.Nearest p ms m ∧ m.origin = origin) ∧
      (index.origin? p = none ↔
        ∀ m ∈ ms, m.generated.line = p.line → p.column < m.generated.column) ∧
      doc.origin? p = index.origin? p ∧
      ∃ before after, index.mappings = before ++ after ∧ (∀ n ∈ before, n.generated ≤ p) ∧
        (∀ n ∈ after, ¬ n.generated ≤ p) ∧ index.last? p = before.getLast?) ∨
    ∃ e, doc.toMappings = .error e ∧ MappingIndex.ofDocument doc = .error e ∧
      ∀ p, doc.origin? p = none := by
  cases hread : doc.toMappings with
  | error e =>
      have hindex : MappingIndex.ofDocument doc = .error e := by
        rw [MappingIndex.ofDocument, hread]
        rfl
      refine .inr ⟨e, rfl, hindex, fun p => ?_⟩
      rw [Document.origin?, hindex]
  | ok ms =>
      have hindex : MappingIndex.ofDocument doc = .ok (.ofMappings ms) := by
        rw [MappingIndex.ofDocument, hread]
        rfl
      refine .inl ⟨ms, _, rfl, hindex, fun p => ⟨MappingIndex.origin?_ofMappings ms p, ?_, ?_, ?_,
        MappingIndex.exists_division ms p⟩⟩
      · intro origin
        rw [MappingIndex.origin?_ofMappings, Option.map_eq_some_iff]
        simp only [Mapping.scan_eq_some_iff]
      · rw [MappingIndex.origin?_ofMappings, Option.map_eq_none_iff]
        constructor
        · intro hnone m hm hline
          rw [← UInt32.not_le]
          exact fun hcolumn => Mapping.not_reaches_of_scan hnone m hm ⟨hline, hcolumn⟩
        · intro hfar
          cases hscan : Mapping.scan p ms with
          | none => rfl
          | some m =>
              have hm := Mapping.nearest_of_scan hscan
              exact absurd hm.column (UInt32.not_le.mpr (hfar m hm.mem hm.line))
      · rw [Document.origin?, hindex]

/-- The second segment goes backwards, and the third has the column of the first. -/
def backwardsDocument : Document := ⟨3, ["a.css"], [], "KAAA,FACA,EACA"⟩

example : (backwardsDocument.origin? ⟨1, 4⟩).map (·.position) = some ⟨2, 0⟩ := by cbv
example : (backwardsDocument.origin? ⟨1, 5⟩).map (·.position) = some ⟨3, 0⟩ := by cbv
example : backwardsDocument.origin? ⟨1, 2⟩ = none := by cbv

end TypedStyles
