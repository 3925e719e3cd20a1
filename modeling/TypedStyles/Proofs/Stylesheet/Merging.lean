import TypedStyles.Proofs.FirstUse
import TypedStyles.Stylesheet.Normalize

/-!
# Merged declarations

Merging puts together the declarations of each name.  The names stand in the
order of their first declaration, every one of them once, and a policy picks the
declaration that gives a name its position (`Named.mergeAll`).  The states of a
class are merged over all of its declarations (`StyleClass.mergeAll`).

Here each record is told by the declarations of its name alone.
`Metadata.ofSymbols` is the surface that is told in this way.
-/

namespace TypedStyles

/-! ## Items of a name -/

section ItemsOfName

variable {α : Type} {name : α → String} {x : String}

theorem filter_name_eq_nil_iff {as : List α} :
    as.filter (fun a => name a = x) = [] ↔ x ∉ as.map name := by
  simp [List.filter_eq_nil_iff]

theorem filter_name_concat_self (as : List α) (a : α) :
    (as ++ [a]).filter (fun b => name b = name a)
      = as.filter (fun b => name b = name a) ++ [a] := by
  simp

theorem filter_name_concat_of_ne (as : List α) {a : α} (h : x ≠ name a) :
    (as ++ [a]).filter (fun b => name b = x) = as.filter (fun b => name b = x) := by
  simp [h.symm]

/-- Of items that are a function of their names, one has a given name. -/
theorem filter_name_map_of_mem {f : String → α} (hname : ∀ y, name (f y) = y) {xs : List String}
    (hnodup : xs.Nodup) (hx : x ∈ xs) : (xs.map f).filter (fun a => name a = x) = [f x] := by
  have hcongr : (fun y => decide (name (f y) = x)) = fun y => decide (y = x) := by
    funext y
    rw [hname]
  have hone := List.count_eq_one_of_mem hnodup hx
  rw [List.filter_map]
  simp only [Function.comp_def, hcongr]
  rw [List.filter_eq, hone]
  rfl

end ItemsOfName

/-! ## The declaration that decides -/

namespace DuplicatePolicy

variable {α : Type}

/-- The declaration that decides among those of a name. -/
def pick (policy : DuplicatePolicy) (ds : List α) : Option α :=
  match policy with
  | .firstWins => ds.head?
  | .lastWins => ds.getLast?

theorem pick_eq_none_iff {policy : DuplicatePolicy} {ds : List α} :
    policy.pick ds = none ↔ ds = [] := by
  cases policy with
  | firstWins => exact List.head?_eq_none_iff
  | lastWins => exact List.getLast?_eq_none_iff

/-- A further declaration decides if it is the first or the policy says so. -/
theorem bind_pick_concat (policy : DuplicatePolicy) (position : α → Option Position)
    (ds : List α) (d : α) :
    (policy.pick (ds ++ [d])).bind position
      = if ds = [] then position d
        else policy.choose ((policy.pick ds).bind position) (position d) := by
  cases ds with
  | nil =>
      cases policy with
      | firstWins => rfl
      | lastWins => rfl
  | cons e ds =>
      cases policy with
      | firstWins => rfl
      | lastWins =>
          rw [pick, List.getLast?_concat, if_neg (List.cons_ne_nil e ds)]
          rfl

end DuplicatePolicy

/-! ## Names -/

namespace Named

variable {policy : DuplicatePolicy}

/-- The declarations of a name. -/
def declarations (x : String) (ns : List Named) : List Named := ns.filter (·.name = x)

/-- A name with the position of the declaration that decides. -/
def merged (policy : DuplicatePolicy) (ns : List Named) (x : String) : Named :=
  ⟨x, (policy.pick (declarations x ns)).bind (·.position)⟩

/-- The names in the order of their first declaration. -/
def mergeAll (policy : DuplicatePolicy) (ns : List Named) : List Named :=
  (ns.map (·.name)).eraseDups.map (merged policy ns)

theorem declarations_eq_nil_iff {x : String} {ns : List Named} :
    declarations x ns = [] ↔ x ∉ ns.map (·.name) := filter_name_eq_nil_iff

end Named

/-! ## Classes -/

namespace StyleClass

/-- The declarations of a class. -/
def declarations (x : String) (cs : List StyleClass) : List StyleClass := cs.filter (·.name = x)

/-- The states in all declarations of a class. -/
def allStates (x : String) (cs : List StyleClass) : List Named :=
  (declarations x cs).flatMap (·.states)

/-- A class with the position of the declaration that decides, and with the states of all its
declarations.  A class without declarations is the root class. -/
def merged (policy : DuplicatePolicy) (cs : List StyleClass) (x : String) : StyleClass where
  name := x
  position :=
    if declarations x cs = [] then some implicitRootPosition
    else (policy.pick (declarations x cs)).bind (·.position)
  states := Named.mergeAll policy (allStates x cs)

/-- The classes in the order of their first declaration, the root class first. -/
def mergeAll (policy : DuplicatePolicy) (root : String) (cs : List StyleClass) : List StyleClass :=
  (root :: cs.map (·.name)).eraseDups.map (merged policy cs)

theorem declarations_eq_nil_iff {x : String} {cs : List StyleClass} :
    declarations x cs = [] ↔ x ∉ cs.map (·.name) := filter_name_eq_nil_iff

end StyleClass

/-! ## Metadata -/

/-- The surface that some declarations export. -/
def Metadata.ofSymbols (policy : DuplicatePolicy) (nameSpace root : String)
    (symbols : List Symbol) : Metadata where
  nameSpace := nameSpace
  classes := StyleClass.mergeAll policy root (symbols.filterMap Symbol.class?)
  stVars := Named.mergeAll policy (symbols.filterMap Symbol.stVar?)
  cssVars := Named.mergeAll policy (symbols.filterMap Symbol.cssVar?)
  keyframes := Named.mergeAll policy (symbols.filterMap Symbol.keyframes?)

end TypedStyles
