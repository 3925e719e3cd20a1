import Mathlib.Data.List.Induction
import Mathlib.Data.List.Nodup

/-!
# The order of first use

`List.eraseDups` keeps every item where it is used first.  These lemmas say how
the result grows as items are added on either side.
-/

namespace TypedStyles

variable {α : Type} [BEq α] [LawfulBEq α]

theorem eraseDups_removeAll_cons_of_mem {x : α} {seen : List α} (h : x ∈ seen) (xs : List α) :
    ((x :: xs).removeAll seen).eraseDups = (xs.removeAll seen).eraseDups := by
  have hx : seen.contains x = true := List.contains_iff_mem.mpr h
  rw [List.cons_removeAll, hx]
  rfl

theorem eraseDups_removeAll_cons_of_not_mem {x : α} {seen : List α} (h : x ∉ seen)
    (xs : List α) :
    ((x :: xs).removeAll seen).eraseDups = x :: (xs.removeAll (seen ++ [x])).eraseDups := by
  have hx : seen.contains x = false := by
    rw [Bool.eq_false_iff]
    exact fun hc => h (List.contains_iff_mem.mp hc)
  have hrest : (xs.removeAll seen).filter (fun y => !y == x) = xs.removeAll (seen ++ [x]) := by
    rw [List.removeAll, List.removeAll, List.filter_filter]
    apply List.filter_congr
    intro y _
    have helem : (seen ++ [x]).elem y = (seen.elem y || y == x) := by
      rw [Bool.eq_iff_iff]
      simp
    rw [helem, Bool.not_or, Bool.and_comm]
  rw [List.cons_removeAll, hx, if_pos rfl, List.eraseDups_cons, hrest]

/-- An item at the end is kept if it is new. -/
theorem eraseDups_concat (xs : List α) (x : α) :
    (xs ++ [x]).eraseDups = if x ∈ xs then xs.eraseDups else xs.eraseDups ++ [x] := by
  rw [List.eraseDups_append]
  by_cases h : x ∈ xs
  · rw [if_pos h, eraseDups_removeAll_cons_of_mem h, List.removeAll, List.filter_nil,
      List.eraseDups_nil, List.append_nil]
  · rw [if_neg h, eraseDups_removeAll_cons_of_not_mem h, List.removeAll, List.filter_nil,
      List.eraseDups_nil]

theorem nodup_eraseDups (xs : List α) : xs.eraseDups.Nodup := by
  induction xs using List.reverseRecOn with
  | nil => exact List.nodup_nil
  | append_singleton xs x ih =>
      rw [eraseDups_concat]
      split
      next => exact ih
      next h =>
        rw [← List.concat_eq_append]
        exact List.Nodup.concat (fun hmem => h (List.mem_eraseDups.mp hmem)) ih

/-- Items that are all different are kept. -/
theorem eraseDups_of_nodup {xs : List α} (h : xs.Nodup) : xs.eraseDups = xs := by
  induction xs using List.reverseRecOn with
  | nil => rfl
  | append_singleton xs x ih =>
      obtain ⟨hxs, -, hx⟩ := List.nodup_append.mp h
      have hnew : x ∉ xs := fun hmem => hx x hmem x (List.mem_singleton_self x) rfl
      rw [eraseDups_concat, if_neg hnew, ih hxs]

/-- Items that are all the same are kept once. -/
theorem eraseDups_of_forall_eq {xs : List α} {a : α} (h : ∀ x ∈ xs, x = a) :
    xs.eraseDups = if xs.isEmpty then [] else [a] := by
  cases xs with
  | nil => rfl
  | cons x rest =>
      obtain ⟨rfl, hrest⟩ := List.forall_mem_cons.mp h
      have hnone : rest.filter (fun y => !y == x) = [] := by
        rw [List.filter_eq_nil_iff]
        intro y hy
        simp [hrest y hy]
      rw [List.eraseDups_cons, hnone, List.eraseDups_nil]
      rfl

/-- A first item that is repeated at once is kept once. -/
theorem eraseDups_cons_self (x : α) (xs : List α) :
    (x :: x :: xs).eraseDups = (x :: xs).eraseDups := by
  simp [List.eraseDups_cons]

end TypedStyles
