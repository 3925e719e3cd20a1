import Mathlib.Data.List.Forall2
import Mathlib.Data.List.Induction
import TypedStyles.Proofs.Success

/-!
# Going through a list

A list is gone through with a step that may fail.  Every step succeeds
(`mapM_eq_ok_iff`), or the first one that fails decides (`mapM_eq_error_iff`).

A step may depend on the items passed before.  `withBefore` gives every item
the items before it, so such a walk is a walk without memory over pairs.
-/

namespace TypedStyles

variable {ε α β : Type}

/-! ## Steps that may fail -/

section Steps

variable {f : α → Except ε β}

theorem mapM_cons_eq_ok_iff {x : α} {xs : List α} {ys : List β} :
    (x :: xs).mapM f = .ok ys ↔
      ∃ y rest, f x = .ok y ∧ xs.mapM f = .ok rest ∧ ys = y :: rest := by
  rw [List.mapM_cons]
  constructor
  · intro h
    obtain ⟨y, hy, h⟩ := bind_eq_ok_iff.mp h
    obtain ⟨rest, hrest, h⟩ := bind_eq_ok_iff.mp h
    exact ⟨y, rest, hy, hrest, (Except.ok.inj h).symm⟩
  · rintro ⟨y, rest, hy, hrest, rfl⟩
    exact bind_eq_ok_iff.mpr ⟨y, hy, bind_eq_ok_iff.mpr ⟨rest, hrest, rfl⟩⟩

/-- A walk succeeds with the results of its steps. -/
theorem mapM_eq_ok_iff {xs : List α} {ys : List β} :
    xs.mapM f = .ok ys ↔ List.Forall₂ (fun x y => f x = .ok y) xs ys := by
  induction xs generalizing ys with
  | nil =>
      cases ys with
      | nil => simp [pure, Except.pure]
      | cons y ys => simp [pure, Except.pure]
  | cons x xs ih =>
      rw [mapM_cons_eq_ok_iff]
      constructor
      · rintro ⟨y, rest, hy, hrest, rfl⟩
        exact .cons hy (ih.mp hrest)
      · intro h
        cases h with
        | cons hy hrest => exact ⟨_, _, hy, ih.mpr hrest, rfl⟩

/-- The results of a walk are those of its steps. -/
theorem mem_iff_of_mapM_eq_ok {xs : List α} {ys : List β} (h : xs.mapM f = .ok ys) {y : β} :
    y ∈ ys ↔ ∃ x ∈ xs, f x = .ok y := by
  induction xs generalizing ys with
  | nil =>
      obtain rfl := Except.ok.inj h
      simp
  | cons x xs ih =>
      obtain ⟨z, rest, hz, hrest, rfl⟩ := mapM_cons_eq_ok_iff.mp h
      simp [ih hrest, hz, eq_comm]

theorem exists_mapM_iff {xs : List α} :
    (∃ ys, xs.mapM f = .ok ys) ↔ ∀ x ∈ xs, ∃ y, f x = .ok y := by
  induction xs with
  | nil => simp [pure, Except.pure]
  | cons x xs ih =>
      rw [List.forall_mem_cons, ← ih]
      constructor
      · rintro ⟨ys, h⟩
        obtain ⟨y, rest, hy, hrest, -⟩ := mapM_cons_eq_ok_iff.mp h
        exact ⟨⟨y, hy⟩, rest, hrest⟩
      · rintro ⟨⟨y, hy⟩, rest, hrest⟩
        exact ⟨y :: rest, mapM_cons_eq_ok_iff.mpr ⟨y, rest, hy, hrest, rfl⟩⟩

/-- A walk fails with the first step that fails. -/
theorem mapM_eq_error_iff {xs : List α} {e : ε} :
    xs.mapM f = .error e ↔
      ∃ before x after, xs = before ++ x :: after ∧ (∀ y ∈ before, ∃ z, f y = .ok z) ∧
        f x = .error e := by
  induction xs with
  | nil => simp [pure, Except.pure]
  | cons x xs ih =>
      rw [List.mapM_cons, bind_eq_error_iff]
      constructor
      · rintro (h | ⟨y, hy, h⟩)
        · exact ⟨[], x, xs, rfl, by simp, h⟩
        · rcases bind_eq_error_iff.mp h with h | ⟨rest, -, h⟩
          · obtain ⟨before, failing, after, rfl, hbefore, hfailing⟩ := ih.mp h
            refine ⟨x :: before, failing, after, rfl, ?_, hfailing⟩
            exact List.forall_mem_cons.mpr ⟨⟨y, hy⟩, hbefore⟩
          · cases h
      · rintro ⟨before, failing, after, hsplit, hbefore, hfailing⟩
        cases before with
        | nil =>
            obtain ⟨rfl, -⟩ := List.cons.inj hsplit
            exact Or.inl hfailing
        | cons first before =>
            obtain ⟨rfl, rfl⟩ := List.cons.inj hsplit
            obtain ⟨⟨y, hy⟩, hbefore⟩ := List.forall_mem_cons.mp hbefore
            have hrest := ih.mpr ⟨before, failing, after, rfl, hbefore, hfailing⟩
            exact Or.inr ⟨y, hy, bind_eq_error_iff.mpr (Or.inl hrest)⟩

end Steps

/-! ## Items with those before them -/

/-- Every item of a list with the items before it, where some items came
before the list. -/
def withBefore : (before : List α) → List α → List (List α × α)
  | _, [] => []
  | before, x :: xs => (before, x) :: withBefore (before ++ [x]) xs
termination_by structural _ xs => xs

theorem withBefore_append (before xs ys : List α) :
    withBefore before (xs ++ ys) = withBefore before xs ++ withBefore (before ++ xs) ys := by
  induction xs generalizing before with
  | nil => simp [withBefore]
  | cons x xs ih => simp [withBefore, ih]

/-- A list divides as its items with those before them do. -/
theorem withBefore_eq_append_cons_iff {before xs : List α} {ps qs : List (List α × α)}
    {p : List α × α} :
    withBefore before xs = ps ++ p :: qs ↔
      ∃ ys z zs, xs = ys ++ z :: zs ∧ ps = withBefore before ys ∧ p = (before ++ ys, z) ∧
        qs = withBefore (before ++ ys ++ [z]) zs := by
  constructor
  · intro h
    induction xs generalizing before ps with
    | nil => simp [withBefore] at h
    | cons x xs ih =>
        cases ps with
        | nil =>
            obtain ⟨rfl, rfl⟩ := List.cons.inj h
            exact ⟨[], x, xs, rfl, rfl, by simp, by simp⟩
        | cons first ps =>
            obtain ⟨rfl, hrest⟩ := List.cons.inj h
            obtain ⟨ys, z, zs, rfl, rfl, rfl, rfl⟩ := ih hrest
            exact ⟨x :: ys, z, zs, rfl, rfl, by simp, by simp⟩
  · rintro ⟨ys, z, zs, rfl, rfl, rfl, rfl⟩
    rw [withBefore_append]
    rfl

theorem mem_withBefore_iff {before xs : List α} {p : List α × α} :
    p ∈ withBefore before xs ↔ ∃ ys z zs, xs = ys ++ z :: zs ∧ p = (before ++ ys, z) := by
  rw [List.mem_iff_append]
  constructor
  · rintro ⟨ps, qs, h⟩
    obtain ⟨ys, z, zs, hxs, -, hp, -⟩ := withBefore_eq_append_cons_iff.mp h
    exact ⟨ys, z, zs, hxs, hp⟩
  · rintro ⟨ys, z, zs, hxs, hp⟩
    exact ⟨_, _, withBefore_eq_append_cons_iff.mpr ⟨ys, z, zs, hxs, rfl, hp, rfl⟩⟩

theorem forall_mem_withBefore_iff {p : List α × α → Prop} {xs : List α} :
    (∀ q ∈ withBefore [] xs, p q) ↔
      ∀ before x after, xs = before ++ x :: after → p (before, x) := by
  constructor
  · intro h before x after hsplit
    exact h (before, x) (mem_withBefore_iff.mpr ⟨before, x, after, hsplit, rfl⟩)
  · intro h q hq
    obtain ⟨before, x, after, hsplit, rfl⟩ := mem_withBefore_iff.mp hq
    exact h before x after hsplit

/-- What holds of every item with those before it holds so far and of the last item. -/
theorem forall_split_concat_iff {p : List α → α → Prop} {xs : List α} {y : α} :
    (∀ before x after, xs ++ [y] = before ++ x :: after → p before x) ↔
      (∀ before x after, xs = before ++ x :: after → p before x) ∧ p xs y := by
  constructor
  · intro h
    refine ⟨fun before x after hsplit => ?_, h xs y [] rfl⟩
    exact h before x (after ++ [y]) (by rw [hsplit, List.append_assoc, List.cons_append])
  · rintro ⟨hxs, hy⟩ before x after hsplit
    cases after using List.reverseRecOn with
    | nil =>
        obtain ⟨rfl, hlast⟩ := List.append_inj' hsplit rfl
        exact List.singleton_inj.mp hlast ▸ hy
    | append_singleton after z =>
        rw [← List.cons_append, ← List.append_assoc] at hsplit
        exact hxs before x after (List.append_inj' hsplit rfl).1

/-! ## Steps that depend on what was passed -/

section History

variable {f : List α × α → Except ε β}

/-- A walk succeeds if every step does, behind the items before. -/
theorem exists_mapM_withBefore_iff {xs : List α} :
    (∃ ys, (withBefore [] xs).mapM f = .ok ys) ↔
      ∀ before x after, xs = before ++ x :: after → ∃ y, f (before, x) = .ok y := by
  rw [exists_mapM_iff, forall_mem_withBefore_iff]

/-- A walk fails with the first step that fails behind the items before. -/
theorem mapM_withBefore_eq_error_iff {xs : List α} {e : ε} :
    (withBefore [] xs).mapM f = .error e ↔
      ∃ before x after, xs = before ++ x :: after ∧
        (∃ ys, (withBefore [] before).mapM f = .ok ys) ∧ f (before, x) = .error e := by
  rw [mapM_eq_error_iff]
  constructor
  · rintro ⟨ps, p, qs, hsplit, hbefore, hstep⟩
    obtain ⟨before, x, after, hxs, rfl, rfl, -⟩ := withBefore_eq_append_cons_iff.mp hsplit
    exact ⟨before, x, after, hxs, exists_mapM_iff.mpr hbefore, hstep⟩
  · rintro ⟨before, x, after, rfl, hbefore, hstep⟩
    exact ⟨_, (before, x), _, withBefore_append [] before (x :: after),
      exists_mapM_iff.mp hbefore, hstep⟩

end History

end TypedStyles
