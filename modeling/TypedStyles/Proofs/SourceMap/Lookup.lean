import TypedStyles.Proofs.Text.Position
import TypedStyles.SourceMap.Index

/-!
# Lookups in sorted mappings

In mappings that are sorted, those that do not come after a position stand at
the beginning.  So a lookup finds the last mapping on the line of the position
that has no greater column (`origin?_eq`).  Where every line has one mapping at
most, that is the mapping of the line (`origin?_eq_some_iff`).

The sort that an index is made with is stable (`Mapping.filter_sort`).
-/

namespace TypedStyles

theorem eq_of_pairwise_lt {α : Type} {f : α → UInt32} {xs : List α}
    (h : xs.Pairwise fun x y => f x < f y) {x y : α} (hx : x ∈ xs) (hy : y ∈ xs)
    (hxy : f x = f y) : x = y := by
  induction xs with
  | nil => cases hx
  | cons first rest ih =>
      obtain ⟨hfirst, hrest⟩ := List.pairwise_cons.mp h
      rcases List.mem_cons.mp hx with hx | hx
      · rcases List.mem_cons.mp hy with hy | hy
        · rw [hx, hy]
        · exact absurd hxy (UInt32.ne_of_lt (hx ▸ hfirst y hy))
      · rcases List.mem_cons.mp hy with hy | hy
        · exact absurd hxy.symm (UInt32.ne_of_lt (hy ▸ hfirst x hx))
        · exact ih hrest hx hy

/-! ## Sorting -/

namespace Mapping

/-- The mappings stand in the order of their generated positions. -/
def Sorted (ms : List Mapping) : Prop := ms.Pairwise fun m n => m.generated ≤ n.generated

instance (ms : List Mapping) : Decidable (Sorted ms) :=
  inferInstanceAs (Decidable (ms.Pairwise fun m n => m.generated ≤ n.generated))

/-- Every mapping stands on a line below the one before. -/
def LineByLine (ms : List Mapping) : Prop :=
  ms.Pairwise fun m n => m.generated.line < n.generated.line

theorem decide_le_trans (a b c : Mapping) (hab : decide (a.generated ≤ b.generated) = true)
    (hbc : decide (b.generated ≤ c.generated) = true) :
    decide (a.generated ≤ c.generated) = true :=
  decide_eq_true (Position.le_trans (of_decide_eq_true hab) (of_decide_eq_true hbc))

theorem decide_le_total (a b : Mapping) :
    (decide (a.generated ≤ b.generated) || decide (b.generated ≤ a.generated)) = true := by
  rw [Bool.or_eq_true, decide_eq_true_eq, decide_eq_true_eq]
  exact Position.le_total _ _

theorem sorted_sort (ms : List Mapping) : Sorted (sort ms) := by
  have h : (sort ms).Pairwise fun m n => decide (m.generated ≤ n.generated) = true :=
    List.pairwise_mergeSort decide_le_trans decide_le_total ms
  exact h.imp fun hab => of_decide_eq_true hab

theorem perm_sort (ms : List Mapping) : (sort ms).Perm ms := List.mergeSort_perm _ _

/-- The sort is stable: mappings of one position stay in the order in which they stood. -/
theorem filter_sort (ms : List Mapping) (p : Position) :
    (sort ms).filter (·.generated = p) = ms.filter (·.generated = p) := by
  have hsame : (ms.filter (·.generated = p)).Pairwise
      fun m n => decide (m.generated ≤ n.generated) = true := by
    apply List.pairwise_of_forall_mem_list
    intro m hm n hn
    have hmp : m.generated = p := of_decide_eq_true (List.mem_filter.mp hm).2
    have hnp : n.generated = p := of_decide_eq_true (List.mem_filter.mp hn).2
    rw [hmp, hnp]
    exact decide_eq_true (Position.le_refl p)
  have hsub : (ms.filter (·.generated = p)).Sublist (sort ms) :=
    List.sublist_mergeSort decide_le_trans decide_le_total hsame List.filter_sublist
  have hfilter := hsub.filter (·.generated = p)
  rw [List.filter_filter] at hfilter
  simp only [Bool.and_self] at hfilter
  exact (hfilter.eq_of_length ((perm_sort ms).filter _).length_eq.symm).symm

theorem sort_eq_self {ms : List Mapping} (h : Sorted ms) : sort ms = ms :=
  List.mergeSort_of_pairwise (h.imp fun hab => decide_eq_true hab)

theorem mem_sort {m : Mapping} {ms : List Mapping} : m ∈ sort ms ↔ m ∈ ms := List.mem_mergeSort

theorem LineByLine.sorted {ms : List Mapping} (h : LineByLine ms) : Sorted ms :=
  h.imp Position.le_of_line_lt

end Mapping

/-! ## The mapping that is found -/

/-- If a predicate holds before wherever it holds, it holds at the beginning and nowhere else. -/
theorem takeWhile_eq_filter {α : Type} {p : α → Bool} {xs : List α}
    (h : xs.Pairwise fun x y => p y = true → p x = true) : xs.takeWhile p = xs.filter p := by
  induction xs with
  | nil => rfl
  | cons x xs ih =>
      obtain ⟨hx, hxs⟩ := List.pairwise_cons.mp h
      by_cases hp : p x = true
      · rw [List.takeWhile_cons_of_pos hp, List.filter_cons_of_pos hp, ih hxs]
      · rw [List.takeWhile_cons_of_neg hp, List.filter_cons_of_neg hp, eq_comm,
          List.filter_eq_nil_iff]
        exact fun y hy hpy => hp (hx y hy hpy)

namespace MappingIndex

/-- A mapping is on the line of a position and does not come after it. -/
def Reaches (p : Position) (m : Mapping) : Prop :=
  m.generated.line = p.line ∧ m.generated.column ≤ p.column

instance (p : Position) (m : Mapping) : Decidable (Reaches p m) :=
  inferInstanceAs (Decidable (_ ∧ _))

theorem Reaches.le {p : Position} {m : Mapping} (h : Reaches p m) : m.generated ≤ p := Or.inr h

/-- A lookup in sorted mappings finds the last mapping of the line that does not come after the
position. -/
theorem origin?_eq {ms : List Mapping} (h : Mapping.Sorted ms) (p : Position) :
    (⟨ms⟩ : MappingIndex).origin? p
      = ((ms.filter fun m => Reaches p m).getLast?).map (·.origin) := by
  have hbefore : ms.takeWhile (fun m => decide (m.generated ≤ p))
      = ms.filter (fun m => decide (m.generated ≤ p)) := by
    apply takeWhile_eq_filter
    refine h.imp fun hxy hy => ?_
    exact decide_eq_true (Position.le_trans hxy (of_decide_eq_true hy))
  have hreach : ms.filter (fun m => Reaches p m)
      = (ms.filter (fun m => decide (m.generated ≤ p))).filter (fun m => Reaches p m) := by
    rw [List.filter_filter]
    apply List.filter_congr
    intro m _
    by_cases hm : Reaches p m
    · simp [hm, hm.le]
    · simp [hm]
  have hsorted : Mapping.Sorted (ms.filter (fun m => decide (m.generated ≤ p))) := h.filter _
  have hle : ∀ m ∈ ms.filter (fun m => decide (m.generated ≤ p)), m.generated ≤ p :=
    fun m hm => of_decide_eq_true (List.mem_filter.mp hm).2
  rw [origin?, last?, hbefore, hreach]
  generalize ms.filter (fun m => decide (m.generated ≤ p)) = before at hsorted hle
  -- The last mapping before the position decides: if it stands above, they all do.
  rcases List.eq_nil_or_concat before with rfl | ⟨init, m, rfl⟩
  · rfl
  · rw [List.concat_eq_append] at hsorted hle ⊢
    have hm := hle m (by simp)
    by_cases hline : m.generated.line = p.line
    · have hreaches : Reaches p m := by
        rcases hm with hlt | hcolumn
        · exact absurd hline (UInt32.ne_of_lt hlt)
        · exact hcolumn
      simp [hline, hreaches]
    · have hnone : (init ++ [m]).filter (fun m => Reaches p m) = [] := by
        rw [List.filter_eq_nil_iff]
        intro n hn hreaches
        have hnp : n.generated.line = p.line := (of_decide_eq_true hreaches).1
        apply hline
        have hup := Position.line_le_of_le hm
        rcases List.mem_append.mp hn with hinit | hlast
        · have hnm := (List.pairwise_append.mp hsorted).2.2 n hinit m (by simp)
          exact UInt32.le_antisymm hup (hnp ▸ Position.line_le_of_le hnm)
        · rw [List.mem_singleton.mp hlast] at hnp
          exact hnp
      rw [hnone]
      simp [hline]

/-- Where every line has one mapping at most, a lookup finds the mapping of the line. -/
theorem origin?_eq_some_iff {ms : List Mapping} (h : Mapping.LineByLine ms) {p : Position}
    {origin : Origin} :
    (⟨ms⟩ : MappingIndex).origin? p = some origin ↔
      ∃ m ∈ ms, Reaches p m ∧ m.origin = origin := by
  rw [origin?_eq h.sorted, Option.map_eq_some_iff]
  constructor
  · rintro ⟨m, hm, horigin⟩
    obtain ⟨hmem, hreaches⟩ := List.mem_filter.mp (List.mem_of_getLast? hm)
    exact ⟨m, hmem, of_decide_eq_true hreaches, horigin⟩
  · rintro ⟨m, hm, hreaches, horigin⟩
    have hmem : m ∈ ms.filter fun m => Reaches p m :=
      List.mem_filter.mpr ⟨hm, decide_eq_true hreaches⟩
    cases hlast : (ms.filter fun m => Reaches p m).getLast? with
    | none =>
        rw [List.getLast?_eq_none_iff.mp hlast] at hmem
        cases hmem
    | some n =>
        obtain ⟨hn, hreachesn⟩ := List.mem_filter.mp (List.mem_of_getLast? hlast)
        have hline := (of_decide_eq_true hreachesn).1.trans hreaches.1.symm
        exact ⟨n, rfl, by rw [eq_of_pairwise_lt h hn hm hline, horigin]⟩

end MappingIndex

end TypedStyles
