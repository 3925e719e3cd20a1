import TypedStyles.Proofs.Declaration.Resolution
import TypedStyles.Proofs.SourceMap.Acceptance

/-!
# What a recording holds

A declaration is written into a recording that may already hold mappings.  It
adds one mapping for each of its keys whose name has a position, in the order
of the keys, and it leaves those that were there (`Metadata.emit_records`).

A recording may take single mappings and whole declarations in any order, and
snapshots of it may be taken in between.  `Action.recorded` says what an action
adds, whatever the recording holds.  So a recording holds what its actions
recorded, one after the other (`Recording.toList_performAll`), and a snapshot of
it is the same mappings, stably sorted (`Recording.snapshot_performAll`).  A
snapshot can always be written as far as its order is concerned, and what is
written reads back as the snapshot.
-/

namespace TypedStyles

/-! ## One declaration -/

namespace Metadata

theorem length_entries (m : Metadata) : m.entries.length = m.symbolCount := by
  simp [entries, symbolCount, StyleClass.entries, List.length_flatMap, Nat.add_assoc]

theorem toList_recording_emit (m : Metadata) (source : String) (recording : Recording) :
    (m.emit source recording).recording.toList = recording.toList ++ m.mappings source := by
  rw [toList_emit_recording, m.emit_anchors_eq_emit_anchors source source recording .empty]
  rfl

/-- **A declaration records its names.**  Every name of a stylesheet has one anchor, in the order
of the names.  The recording keeps what it held, and behind it stand the mappings of the anchors
whose names have a position.  What the recording held decides neither the anchors nor the text. -/
theorem emit_records (m : Metadata) (source : String) (recording : Recording) :
    (m.emit source recording).anchors.map Anchor.entry = m.entries ∧
      (m.emit source recording).anchors.length = m.symbolCount ∧
      (m.emit source recording).recording.toList = recording.toList ++
        (m.emit source recording).anchors.filterMap (fun a => a.declared.map
          fun place => ⟨a.generated, ⟨source, place, none⟩⟩) ∧
      ∀ other, (m.emit source other).anchors = (m.emit source recording).anchors ∧
        (m.emit source other).text = (m.emit source recording).text := by
  have hentries := m.map_entry_emit_anchors source recording
  refine ⟨hentries, ?_, m.toList_emit_recording source recording, fun other => ⟨?_, ?_⟩⟩
  · rw [← length_entries, ← hentries, List.length_map]
  · exact m.emit_anchors_eq_emit_anchors source source other recording
  · exact m.emit_text_eq_emit_text source source other recording

end Metadata

/-! ## Actions -/

namespace Recording

/-- What can be done with a recording. -/
inductive Action where
  /-- Add a mapping to a place in a file. -/
  | add (generated : Position) (file : String) (place : Position)
  /-- Write the declaration of a stylesheet. -/
  | emit (m : Metadata) (source : String)
  /-- Take a snapshot. -/
  | snapshot
deriving DecidableEq

/-- What an action adds to a recording. -/
def Action.recorded : Action → List Mapping
  | .add generated file place => [⟨generated, ⟨file, place, none⟩⟩]
  | .emit m source => m.mappings source
  | .snapshot => []

theorem Action.name_of_mem_recorded {a : Action} {n : Mapping} (h : n ∈ a.recorded) :
    n.origin.name = none := by
  cases a with
  | add generated file place => rw [List.mem_singleton.mp h]
  | emit m source => exact Anchor.name_of_mem_mappings h
  | snapshot => cases h

/-- The recording after an action. -/
def perform (r : Recording) : Action → Recording
  | .add generated file place => r.add generated file place
  | .emit m source => (m.emit source r).recording
  | .snapshot => r

/-- The recording after actions in turn. -/
def performAll (r : Recording) (actions : List Action) : Recording := actions.foldl perform r

/-- An action adds what it records and keeps what was there. -/
theorem toList_perform (r : Recording) (a : Action) :
    (r.perform a).toList = r.toList ++ a.recorded := by
  cases a with
  | add generated file place => exact toList_add r generated file place
  | emit m source => exact m.toList_recording_emit source r
  | snapshot => exact (List.append_nil _).symm

/-- A recording holds what its actions recorded, in their order. -/
theorem toList_performAll (r : Recording) (actions : List Action) :
    (r.performAll actions).toList = r.toList ++ actions.flatMap Action.recorded := by
  induction actions generalizing r with
  | nil => exact (List.append_nil _).symm
  | cons a actions ih =>
      show ((r.perform a).performAll actions).toList = _
      rw [ih, toList_perform, List.flatMap_cons, List.append_assoc]

/-- Snapshots may be left out. -/
theorem performAll_filter_ne_snapshot (r : Recording) (actions : List Action) :
    r.performAll (actions.filter (· ≠ .snapshot)) = r.performAll actions := by
  induction actions generalizing r with
  | nil => rfl
  | cons a actions ih =>
      by_cases ha : a = .snapshot
      · rw [List.filter_cons_of_neg (by simpa using ha), ih, ha]
        rfl
      · rw [List.filter_cons_of_pos (by simpa using ha)]
        exact ih (r.perform a)

end Recording

/-! ## Snapshots -/

/-- The mappings are those of a list, sorted by their generated positions.  Those of one position
stand as in the list. -/
structure Mapping.StablySorts (ms ns : List Mapping) : Prop where
  perm : ns.Perm ms
  sorted : Sorted ns
  stable : ∀ p, ns.filter (·.generated = p) = ms.filter (·.generated = p)

theorem Mapping.stablySorts_sort (ms : List Mapping) : StablySorts ms (sort ms) :=
  ⟨perm_sort ms, sorted_sort ms, filter_sort ms⟩

/-- **Snapshots.**  After any actions, a snapshot holds what they recorded, stably sorted and
without names, and it does not matter which snapshots were taken before.  Whatever the text is, a
snapshot is not refused for the order of its mappings, and a document that is written from it reads
back as the snapshot, if it has fewer than 2^32 files. -/
theorem Recording.snapshot_performAll (actions : List Action) :
    Mapping.StablySorts (actions.flatMap Action.recorded)
        (performAll .empty actions).snapshot ∧
      (∀ m ∈ (performAll .empty actions).snapshot, m.origin.name = none) ∧
      performAll .empty (actions.filter (· ≠ .snapshot)) = performAll .empty actions ∧
      ∀ text,
        (∀ p, Document.ofMappings text (performAll .empty actions).snapshot
          ≠ .error (.unsorted p)) ∧
        ∀ doc, Mapping.FewFiles (performAll .empty actions).snapshot →
          Document.ofMappings text (performAll .empty actions).snapshot = .ok doc →
          doc.toMappings = .ok (performAll .empty actions).snapshot := by
  have hsnapshot : (performAll .empty actions).snapshot
      = Mapping.sort (actions.flatMap Action.recorded) := by
    rw [snapshot, toList_performAll, toList_empty, List.nil_append]
  have hsorts := Mapping.stablySorts_sort (actions.flatMap Action.recorded)
  have hnames : ∀ m ∈ Mapping.sort (actions.flatMap Action.recorded), m.origin.name = none := by
    intro m hm
    obtain ⟨a, -, hm⟩ := List.mem_flatMap.mp (hsorts.perm.mem_iff.mp hm)
    exact Action.name_of_mem_recorded hm
  rw [hsnapshot]
  refine ⟨hsorts, hnames, performAll_filter_ne_snapshot .empty actions, fun text =>
    ⟨Document.ofMappings_ne_unsorted hsorts.sorted text, fun doc hfew hdoc => ?_⟩⟩
  rw [Document.toMappings_of_ofMappings hfew hdoc, Mapping.map_unnamed_eq_self hnames]

/-- A mapping that is added early stands between the keys of a declaration, and one that is added
late shares the position of the first key. -/
def overlappingActions : List Recording.Action :=
  [.add ⟨7, 9⟩ "b.css" ⟨4, 4⟩, .snapshot, .emit buttonMetadata "a.css", .add ⟨6, 5⟩ "b.css" ⟨9, 0⟩]

theorem Recording.snapshot_performAll_overlapping :
    (performAll .empty overlappingActions).snapshot
        = [mappingAt 6 5 1 0 "a.css", mappingAt 6 5 9 0 "b.css", mappingAt 7 9 4 4 "b.css",
          mappingAt 12 5 4 8 "a.css"] ∧
      ∃ doc, Document.ofMappings (List.replicate 12 '\n')
          (performAll .empty overlappingActions).snapshot = .ok doc ∧
        doc.toMappings = .ok (performAll .empty overlappingActions).snapshot := by
  have hrecorded : overlappingActions.flatMap Action.recorded
      = [mappingAt 7 9 4 4 "b.css", mappingAt 6 5 1 0 "a.css", mappingAt 12 5 4 8 "a.css",
        mappingAt 6 5 9 0 "b.css"] := by decide +kernel
  have hsnapshot : (performAll .empty overlappingActions).snapshot
      = [mappingAt 6 5 1 0 "a.css", mappingAt 6 5 9 0 "b.css", mappingAt 7 9 4 4 "b.css",
        mappingAt 12 5 4 8 "a.css"] := by
    rw [snapshot, toList_performAll, toList_empty, List.nil_append, hrecorded]
    simp [Mapping.sort, List.mergeSort, List.MergeSort.Internal.splitInTwo, mappingAt,
      Position.le_iff]
  refine ⟨hsnapshot, ?_⟩
  obtain ⟨-, -, -, hread⟩ := snapshot_performAll overlappingActions
  have hdoc : Document.ofMappings (List.replicate 12 '\n')
      (performAll .empty overlappingActions).snapshot
        = .ok ⟨3, ["a.css", "b.css"], [], ";;;;;KAAA,ACQA;SALI;;;;;KDAI"⟩ := by
    rw [hsnapshot]
    exact toOption_eq_some_iff.mp (by decide +kernel)
  have hfew : Mapping.FewFiles (performAll .empty overlappingActions).snapshot := by
    rw [hsnapshot]
    decide +kernel
  exact ⟨_, hdoc, (hread _).2 _ hfew hdoc⟩

end TypedStyles
