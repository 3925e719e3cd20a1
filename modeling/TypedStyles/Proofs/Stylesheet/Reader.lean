import TypedStyles.Proofs.Stylesheet.Merging
import TypedStyles.Proofs.Success

/-!
# Reading declarations is merging them

A reader goes through the declarations once.  It checks each record and adds it,
and it finds the record of a name by an index of places.  Checks and additions do
not meet: a check never looks at what was added, so all of them might as well
come first (`Reader.foldlM_read`).  What is added goes to the group of its kind,
so each group is read from its own declarations (`Reader.foldl_add`).

`Indexed.Holds` is the invariant of a group.  The items are a function of their
names, which stand in the order of their first use, and the index knows the
place of each.  Both steps of a group keep it (`Indexed.Holds.upsert`).  So a
stylesheet that passes all checks exports the merged declarations
(`CompiledSheet.normalize_eq`).
-/

namespace TypedStyles

/-! ## Groups -/

section Lists

variable {α : Type} {xs : List String} {x : String} {i : Nat}

theorem getElem?_concat_eq_some_iff {y : String} :
    (xs ++ [x])[i]? = some y ↔ xs[i]? = some y ∨ i = xs.length ∧ x = y := by
  grind

/-- If items are a function of different names, the item of one name is changed at its place. -/
theorem modify_map_eq_map {change : α → α} {f g : String → α}
    (hother : ∀ y ∈ xs, y ≠ x → f y = g y) (hchange : change (f x) = g x) (hnodup : xs.Nodup)
    (hi : xs[i]? = some x) :
    (xs.map f).modify i change = xs.map g := by
  apply List.ext_getElem?
  intro j
  rw [List.getElem?_modify, List.getElem?_map, List.getElem?_map]
  cases hj : xs[j]? with
  | none => rfl
  | some y =>
      by_cases hij : i = j
      · obtain rfl : x = y := Option.some.inj (hi.symm.trans (hij ▸ hj))
        simp [hij, hchange]
      · have hy : y ≠ x := by
          rintro rfl
          exact hij ((List.getElem?_inj (List.getElem?_eq_some_iff.mp hi).1 hnodup).mp
            (hi.trans hj.symm))
        simp [hij, hother y (List.mem_of_getElem? hj) hy]

end Lists

namespace Indexed

variable {α : Type} {g : Indexed α} {x : String} {change : α → α} {new : α}

/-- The group holds an item `f y` for each name `y` of `xs`, in the order of first use. -/
structure Holds (g : Indexed α) (xs : List String) (f : String → α) : Prop where
  items : g.items = xs.eraseDups.map f
  /-- The index knows the place of each name and no other name. -/
  index : ∀ y i, g.index.lookup y = some i ↔ xs.eraseDups[i]? = some y

theorem holds_empty (f : String → α) : (empty : Indexed α).Holds [] f :=
  ⟨rfl, fun _ _ => ⟨nofun, nofun⟩⟩

variable {xs : List String} {f f' : String → α}

theorem Holds.mem_of_lookup (h : g.Holds xs f) {i : Nat} (hi : g.index.lookup x = some i) :
    x ∈ xs := List.mem_eraseDups.mp (List.mem_of_getElem? ((h.index x i).mp hi))

theorem Holds.not_mem_of_lookup (h : g.Holds xs f) (hplace : g.index.lookup x = none) :
    x ∉ xs := by
  intro hx
  obtain ⟨i, hi⟩ := List.mem_iff_getElem?.mp (List.mem_eraseDups.mpr hx)
  rw [(h.index x i).mpr hi] at hplace
  cases hplace

/-- The index is told of a name that is put at the end. -/
theorem Holds.lookup_cons (h : g.Holds xs f) (hplace : g.index.lookup x = none) (y : String)
    (i : Nat) :
    List.lookup y ((x, g.items.length) :: g.index) = some i ↔
      (xs.eraseDups ++ [x])[i]? = some y := by
  have hlength : g.items.length = xs.eraseDups.length := by
    rw [h.items, List.length_map]
  rw [hlength, List.lookup_cons, getElem?_concat_eq_some_iff, ← h.index]
  by_cases hyx : y = x
  · simp [hyx, hplace, eq_comm]
  · have hbeq : (y == x) = false := beq_false_of_ne hyx
    simp [hbeq, Ne.symm hyx]

/-- A name that is used once more changes its own item alone. -/
theorem Holds.upsert (h : g.Holds xs f) (hother : ∀ y, y ≠ x → f y = f' y)
    (hchange : x ∈ xs → change (f x) = f' x) (hnew : x ∉ xs → new = f' x) :
    (g.upsert x change new).2.Holds (xs ++ [x]) f' := by
  rw [Indexed.upsert]
  cases hplace : g.index.lookup x with
  | some i =>
      have hi := (h.index x i).mp hplace
      have hx := h.mem_of_lookup hplace
      have hnames : (xs ++ [x]).eraseDups = xs.eraseDups := by
        rw [eraseDups_concat, if_pos hx]
      constructor
      · rw [hnames, ← modify_map_eq_map (fun y _ => hother y) (hchange hx) (nodup_eraseDups xs) hi,
          ← h.items]
      · rw [hnames]
        exact h.index
  | none =>
      have hx := h.not_mem_of_lookup hplace
      have hnames : (xs ++ [x]).eraseDups = xs.eraseDups ++ [x] := by
        rw [eraseDups_concat, if_neg hx]
      have hsame : xs.eraseDups.map f = xs.eraseDups.map f' :=
        List.map_congr_left fun y hy =>
          hother y fun hyx => hx (hyx ▸ List.mem_eraseDups.mp hy)
      constructor
      · rw [hnames, List.map_append, ← hsame, ← h.items, hnew hx]
        rfl
      · rw [hnames]
        exact h.lookup_cons hplace

theorem modify_id (g : Indexed α) (i : Nat) : g.modify i (fun a => a) = g :=
  congrArg (Indexed.mk · g.index) (List.modify_id i g.items)

theorem modify_modify (g : Indexed α) (i : Nat) (change more : α → α) :
    (g.modify i change).modify i more = g.modify i fun a => more (change a) :=
  congrArg (Indexed.mk · g.index) (List.modify_modify_eq change more i g.items)

/-- A change at the place of an item that was just changed or put in. -/
theorem modify_upsert (g : Indexed α) (x : String) (change more : α → α) (new : α) :
    (g.upsert x change new).2.modify (g.upsert x change new).1 more
      = (g.upsert x (fun a => more (change a)) (more new)).2 := by
  rw [Indexed.upsert, Indexed.upsert]
  cases g.index.lookup x with
  | some i => exact g.modify_modify i change more
  | none => simp [modify, List.modify_eq_set_getElem?]

end Indexed

/-! ## Groups of names -/

namespace Named

/-- The group of some names. -/
def group (policy : DuplicatePolicy) (ns : List Named) : Indexed Named :=
  ns.foldl (fun g n => n.insert policy g) .empty

theorem holds_group (policy : DuplicatePolicy) (ns : List Named) :
    (group policy ns).Holds (ns.map (·.name)) (merged policy ns) := by
  induction ns using List.reverseRecOn with
  | nil => exact Indexed.holds_empty _
  | append_singleton ns n ih =>
      have hstep : group policy (ns ++ [n]) = n.insert policy (group policy ns) := by
        rw [group, List.foldl_append]
        rfl
      have hdeclarations : declarations n.name (ns ++ [n]) = declarations n.name ns ++ [n] :=
        filter_name_concat_self ns n
      have hlast := policy.bind_pick_concat (·.position) (declarations n.name ns) n
      rw [hstep, List.map_append]
      apply ih.upsert
      · intro y hy
        have hsame : declarations y (ns ++ [n]) = declarations y ns :=
          filter_name_concat_of_ne ns hy
        rw [merged, merged, hsame]
      · intro hx
        rw [if_neg fun h => declarations_eq_nil_iff.mp h hx] at hlast
        rw [merged, merged, hdeclarations, hlast]
      · intro hx
        rw [if_pos (declarations_eq_nil_iff.mpr hx)] at hlast
        rw [merged, hdeclarations, hlast]

/-- Names that are added in turn are merged. -/
theorem items_group (policy : DuplicatePolicy) (ns : List Named) :
    (group policy ns).items = mergeAll policy ns := (holds_group policy ns).items

end Named

/-! ## The group of classes -/

namespace ClassBuilder

open StyleClass (declarations allStates)

variable {policy : DuplicatePolicy} {cs : List StyleClass} {x : String}

/-- Add a declaration of the class, states and all. -/
def add (policy : DuplicatePolicy) (c : StyleClass) (k : ClassBuilder) : ClassBuilder :=
  c.states.foldl (addState policy) (k.declare policy c)

/-- Add a declaration of a class to classes. -/
def insert (policy : DuplicatePolicy) (c : StyleClass) (g : Indexed ClassBuilder) :
    Indexed ClassBuilder :=
  (g.upsert c.name (add policy c) ((undeclared c.name).add policy c)).2

/-- A class as it is once these declarations were read. -/
def gathered (policy : DuplicatePolicy) (cs : List StyleClass) (x : String) : ClassBuilder where
  name := x
  position := (policy.pick (declarations x cs)).bind (·.position)
  declared := decide (declarations x cs ≠ [])
  states := Named.group policy (allStates x cs)

theorem foldl_addState (ss : List Named) (k : ClassBuilder) :
    ss.foldl (addState policy) k
      = { k with states := ss.foldl (fun g s => s.insert policy g) k.states } := by
  induction ss generalizing k with
  | nil => rfl
  | cons s ss ih => rw [List.foldl_cons, ih, List.foldl_cons, addState]

theorem gathered_of_not_mem (h : x ∉ cs.map (·.name)) : gathered policy cs x = undeclared x := by
  have hnone := StyleClass.declarations_eq_nil_iff.mpr h
  rw [gathered, allStates, hnone, DuplicatePolicy.pick_eq_none_iff.mpr rfl]
  rfl

theorem add_gathered (policy : DuplicatePolicy) (cs : List StyleClass) (c : StyleClass) :
    (gathered policy cs c.name).add policy c = gathered policy (cs ++ [c]) c.name := by
  have hdeclarations : declarations c.name (cs ++ [c]) = declarations c.name cs ++ [c] :=
    filter_name_concat_self cs c
  have hlast := policy.bind_pick_concat (·.position) (declarations c.name cs) c
  rw [add, foldl_addState, declare, gathered, gathered, allStates, allStates, hdeclarations, hlast,
    List.flatMap_append, Named.group, Named.group, List.foldl_append]
  simp

/-- A class is at its place with all that was declared of it. -/
theorem holds_foldl_insert (policy : DuplicatePolicy) (root : String) (cs : List StyleClass) :
    (cs.foldl (fun g c => insert policy c g) (Reader.start root).classes).Holds
      (root :: cs.map (·.name)) (gathered policy cs) := by
  induction cs using List.reverseRecOn with
  | nil =>
      have hstart : (Reader.start root).classes
          = (Indexed.empty.upsert root id (undeclared root)).2 := rfl
      rw [List.foldl_nil, hstart]
      apply (Indexed.holds_empty (gathered policy [])).upsert
      · exact fun _ _ => rfl
      · exact nofun
      · exact fun _ => (gathered_of_not_mem List.not_mem_nil).symm
  | append_singleton cs c ih =>
      have hnames : root :: (cs ++ [c]).map (·.name) = (root :: cs.map (·.name)) ++ [c.name] := by
        rw [List.map_append]
        rfl
      rw [List.foldl_append, hnames]
      apply ih.upsert
      · intro y hy
        have hsame : declarations y (cs ++ [c]) = declarations y cs :=
          filter_name_concat_of_ne cs hy
        rw [gathered, gathered, allStates, allStates, hsame]
      · exact fun _ => add_gathered policy cs c
      · intro hx
        rw [← add_gathered, gathered_of_not_mem fun h => hx (List.mem_cons_of_mem root h)]

theorem close_gathered (h : x ∈ cs.map (·.name)) :
    (gathered policy cs x).close = gathered policy cs x := by
  have hdeclared : declarations x cs ≠ [] := fun hnone =>
    StyleClass.declarations_eq_nil_iff.mp hnone h
  simp [close, gathered, hdeclared]

theorem build_close_gathered (policy : DuplicatePolicy) (cs : List StyleClass) (x : String) :
    (gathered policy cs x).close.build = StyleClass.merged policy cs x := by
  by_cases h : declarations x cs = []
  · simp [build, close, gathered, StyleClass.merged, Named.items_group, h]
  · simp [build, close, gathered, StyleClass.merged, Named.items_group, h]

/-- The root class is closed, and every class is merged. -/
theorem map_build_close {g : Indexed ClassBuilder} {root : String}
    (h : g.Holds (root :: cs.map (·.name)) (gathered policy cs)) :
    (g.modify 0 close).items.map build = StyleClass.mergeAll policy root cs := by
  have hother : ∀ y ∈ (root :: cs.map (·.name)).eraseDups, y ≠ root →
      gathered policy cs y = (gathered policy cs y).close := fun y hy hroot =>
    (close_gathered ((List.mem_cons.mp (List.mem_eraseDups.mp hy)).resolve_left hroot)).symm
  have hroot : (root :: cs.map (·.name)).eraseDups[0]? = some root := by
    rw [List.eraseDups_cons]
    rfl
  rw [Indexed.modify, h.items,
    modify_map_eq_map hother rfl (nodup_eraseDups _) hroot, List.map_map, StyleClass.mergeAll]
  exact List.map_congr_left fun x _ => build_close_gathered policy cs x

end ClassBuilder

/-! ## All declarations -/

/-- If a step checks an item and adds it, and the check does not look at what was added before,
all checks might as well come first. -/
theorem foldlM_eq_map_forM {σ α ε : Type} {step : σ → α → Except ε σ} {check : α → Except ε Unit}
    {add : σ → α → σ} (h : ∀ s a, step s a = (fun _ => add s a) <$> check a) (as : List α) (s : σ) :
    as.foldlM step s = (fun _ => as.foldl add s) <$> as.forM check := by
  induction as generalizing s with
  | nil => rfl
  | cons a as ih =>
      have hchecks : (a :: as).forM check = check a >>= fun _ => as.forM check := rfl
      rw [List.foldlM_cons, hchecks, h]
      cases check a with
      | error e => rfl
      | ok _ => exact ih (add s a)

/-- Check a declaration.  The states of a class come after the class. -/
def Symbol.check : Symbol → Except MetadataError Unit
  | .styleClass c => do
      c.named.check .styleClass
      c.states.forM (Named.check .state)
  | .stVar n => n.check .stVar
  | .cssVar n => n.check .cssVar
  | .keyframes n => n.check .keyframes

namespace Reader

variable {policy : DuplicatePolicy}

/-- Add a state to the class at a place. -/
def addState (policy : DuplicatePolicy) (i : Nat) (r : Reader) (s : Named) : Reader :=
  { r with classes := r.classes.modify i (·.addState policy s) }

/-- Add a declaration. -/
def add (policy : DuplicatePolicy) (r : Reader) : Symbol → Reader
  | .styleClass c => { r with classes := ClassBuilder.insert policy c r.classes }
  | .stVar n => { r with stVars := n.insert policy r.stVars }
  | .cssVar n => { r with cssVars := n.insert policy r.cssVars }
  | .keyframes n => { r with keyframes := n.insert policy r.keyframes }

theorem foldl_addState (i : Nat) (ss : List Named) (r : Reader) :
    ss.foldl (addState policy i) r
      = { r with
          classes := r.classes.modify i fun k => ss.foldl (ClassBuilder.addState policy) k } := by
  induction ss generalizing r with
  | nil => exact congrArg (fun g => { r with classes := g }) (r.classes.modify_id i).symm
  | cons s ss ih =>
      rw [List.foldl_cons, ih, addState, Indexed.modify_modify]
      rfl

theorem read_eq_map (r : Reader) (symbol : Symbol) :
    r.read policy symbol = (fun _ => r.add policy symbol) <$> symbol.check := by
  cases symbol with
  | styleClass c =>
      have hstates : ∀ i r, c.states.foldlM (readState policy i) r
          = (fun _ => c.states.foldl (addState policy i) r) <$>
            c.states.forM (Named.check .state) :=
        fun i => foldlM_eq_map_forM (fun _ _ => rfl) c.states
      have hplace := r.classes.modify_upsert c.name (.declare policy c)
        (fun k => c.states.foldl (ClassBuilder.addState policy) k) (.first c)
      simp only [read, hstates, foldl_addState, hplace]
      rw [Symbol.check, add, ClassBuilder.insert]
      cases c.named.check .styleClass with
      | error e => rfl
      | ok _ => rfl
  | stVar n => rfl
  | cssVar n => rfl
  | keyframes n => rfl

theorem foldlM_read (symbols : List Symbol) (r : Reader) :
    symbols.foldlM (read policy) r
      = (fun _ => symbols.foldl (add policy) r) <$> symbols.forM Symbol.check :=
  foldlM_eq_map_forM read_eq_map symbols r

/-- What is added goes to the group of its kind. -/
theorem foldl_add (symbols : List Symbol) (r : Reader) :
    symbols.foldl (add policy) r =
      { classes := (symbols.filterMap Symbol.class?).foldl
          (fun g c => ClassBuilder.insert policy c g) r.classes
        stVars := (symbols.filterMap Symbol.stVar?).foldl (fun g n => n.insert policy g) r.stVars
        cssVars := (symbols.filterMap Symbol.cssVar?).foldl (fun g n => n.insert policy g) r.cssVars
        keyframes := (symbols.filterMap Symbol.keyframes?).foldl
          (fun g n => n.insert policy g) r.keyframes } := by
  induction symbols generalizing r with
  | nil => rfl
  | cons symbol symbols ih =>
      rw [List.foldl_cons, ih]
      cases symbol with
      | styleClass c => rfl
      | stVar n => rfl
      | cssVar n => rfl
      | keyframes n => rfl

/-- What is added in turn is merged. -/
theorem metadata_foldl_add (policy : DuplicatePolicy) (nameSpace root : String)
    (symbols : List Symbol) :
    (symbols.foldl (add policy) (start root)).metadata nameSpace
      = .ofSymbols policy nameSpace root symbols := by
  rw [foldl_add, metadata, Metadata.ofSymbols, ClassBuilder.map_build_close
    (ClassBuilder.holds_foldl_insert policy root (symbols.filterMap Symbol.class?)),
    ← Named.items_group, ← Named.items_group, ← Named.items_group]
  rfl

end Reader

/-! ## Stylesheets -/

namespace CompiledSheet

/-- What is read of a stylesheet that is accepted: its namespace, the name of its root class, and
its declarations. -/
def checked (sheet : CompiledSheet) : Except MetadataError (String × String × List Symbol) := do
  let nameSpace ← sheet.checkedNamespace
  let symbols ← sheet.checkedSymbols
  let root ← sheet.checkedRoot
  symbols.forM Symbol.check
  return (nameSpace, root, symbols)

/-- A stylesheet that passes all checks exports its declarations, merged. -/
theorem normalize_eq (sheet : CompiledSheet) (policy : DuplicatePolicy) :
    sheet.normalize policy = (fun c => .ofSymbols policy c.1 c.2.1 c.2.2) <$> sheet.checked := by
  simp only [normalize, checked, Reader.foldlM_read, map_bind, map_pure, bind_map_left,
    Reader.metadata_foldl_add]

end CompiledSheet

end TypedStyles
