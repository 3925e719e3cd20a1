import TypedStyles.Proofs.Stylesheet.Reader

/-!
# From declarations to exported names

A name that is declared is exported once among the names of its kind, at the
position of the declaration that the policy picks
(`Metadata.declarations_ofKind`).  The same holds for a state among the states
of its class, where the declarations of all states of the class count
(`Metadata.declarations_allStates`).  The root class is exported even if it is
never declared (`Metadata.declarations_root`), and nothing else is
(`Metadata.declared_of_mem_ofKind`, `Metadata.declared_of_mem_states`).
-/

namespace TypedStyles

/-! ## Declarations of a name -/

namespace Symbol

/-- The name that is declared, if it is of this kind. -/
def named? (kind : SymbolKind) (symbol : Symbol) : Option Named :=
  match kind with
  | .styleClass => symbol.class?.map StyleClass.named
  | .state => none
  | .stVar => symbol.stVar?
  | .cssVar => symbol.cssVar?
  | .keyframes => symbol.keyframes?

/-- The declarations of a name of this kind, in source order. -/
def declarations (kind : SymbolKind) (x : String) (symbols : List Symbol) : List Named :=
  Named.declarations x (symbols.filterMap (named? kind))

/-- The declarations of a state, in source order over all declarations of its class. -/
def stateDeclarations (className state : String) (symbols : List Symbol) : List Named :=
  Named.declarations state (StyleClass.allStates className (symbols.filterMap class?))

theorem declarations_state (x : String) (symbols : List Symbol) :
    declarations .state x symbols = [] := by
  have hnone : symbols.filterMap (named? .state) = [] :=
    List.filterMap_eq_nil_iff.mpr fun _ _ => rfl
  rw [declarations, hnone]
  rfl

theorem declarations_styleClass (x : String) (symbols : List Symbol) :
    declarations .styleClass x symbols
      = (StyleClass.declarations x (symbols.filterMap class?)).map StyleClass.named := by
  have hclasses : symbols.filterMap (named? .styleClass)
      = (symbols.filterMap class?).map StyleClass.named := by
    rw [List.map_filterMap]
    rfl
  rw [declarations, hclasses, Named.declarations, List.filter_map]
  rfl

end Symbol

/-! ## Merged names -/

theorem DuplicatePolicy.ne_nil_of_pick {α : Type} {policy : DuplicatePolicy} {ds : List α} {d : α}
    (h : policy.pick ds = some d) : ds ≠ [] := by
  rintro rfl
  rw [pick_eq_none_iff.mpr rfl] at h
  cases h

theorem DuplicatePolicy.pick_map {α β : Type} (policy : DuplicatePolicy) (f : α → β)
    (ds : List α) : policy.pick (ds.map f) = (policy.pick ds).map f := by
  cases policy with
  | firstWins => exact List.head?_map
  | lastWins => exact List.getLast?_map

theorem Named.declarations_mergeAll {policy : DuplicatePolicy} {x : String} {ns : List Named}
    {d : Named} (h : policy.pick (declarations x ns) = some d) :
    declarations x (mergeAll policy ns) = [⟨x, d.position⟩] := by
  have hx : x ∈ ns.map (·.name) := by
    by_contra hx
    exact DuplicatePolicy.ne_nil_of_pick h (declarations_eq_nil_iff.mpr hx)
  have hone : declarations x (mergeAll policy ns) = [merged policy ns x] :=
    filter_name_map_of_mem (fun _ => rfl) (nodup_eraseDups _) (List.mem_eraseDups.mpr hx)
  rw [hone, merged, h]
  rfl

theorem StyleClass.declarations_mergeAll {policy : DuplicatePolicy} {root x : String}
    {cs : List StyleClass} (hx : x ∈ root :: cs.map (·.name)) :
    declarations x (mergeAll policy root cs) = [merged policy cs x] :=
  filter_name_map_of_mem (fun _ => rfl) (nodup_eraseDups _) (List.mem_eraseDups.mpr hx)

/-! ## The exported surface -/

namespace Metadata

/-- The exported names of a kind.  States are exported with their classes. -/
def ofKind (m : Metadata) : SymbolKind → List Named
  | .styleClass => m.classes.map StyleClass.named
  | .state => []
  | .stVar => m.stVars
  | .cssVar => m.cssVars
  | .keyframes => m.keyframes

section OfSymbols

variable {policy : DuplicatePolicy} {nameSpace root x : String} {symbols : List Symbol}

theorem ofKind_ofSymbols {kind : SymbolKind} (hclass : kind ≠ .styleClass) :
    (ofSymbols policy nameSpace root symbols).ofKind kind
      = if kind = .state then []
        else Named.mergeAll policy (symbols.filterMap (Symbol.named? kind)) := by
  cases kind with
  | styleClass => exact absurd rfl hclass
  | state => rfl
  | stVar => rfl
  | cssVar => rfl
  | keyframes => rfl

theorem declarations_map_named (cs : List StyleClass) :
    Named.declarations x (cs.map StyleClass.named)
      = (StyleClass.declarations x cs).map StyleClass.named := by
  rw [Named.declarations, List.filter_map]
  rfl

/-- A declared name is exported once, at the position of the declaration that is picked. -/
theorem declarations_ofKind {kind : SymbolKind} {d : Named}
    (h : policy.pick (Symbol.declarations kind x symbols) = some d) :
    Named.declarations x ((ofSymbols policy nameSpace root symbols).ofKind kind)
      = [⟨x, d.position⟩] := by
  have hdeclared := DuplicatePolicy.ne_nil_of_pick h
  by_cases hclass : kind = .styleClass
  · rw [hclass, Symbol.declarations_styleClass] at h hdeclared
    rw [DuplicatePolicy.pick_map, Option.map_eq_some_iff] at h
    obtain ⟨c, hc, rfl⟩ := h
    have hdecls := DuplicatePolicy.ne_nil_of_pick hc
    have hx : x ∈ root :: (symbols.filterMap Symbol.class?).map (·.name) := by
      by_contra hx
      exact hdecls (StyleClass.declarations_eq_nil_iff.mpr fun h => hx (List.mem_cons_of_mem _ h))
    rw [hclass, ofKind, ofSymbols, declarations_map_named,
      StyleClass.declarations_mergeAll hx, StyleClass.merged, if_neg hdecls, hc]
    rfl
  · by_cases hstate : kind = .state
    · rw [hstate, Symbol.declarations_state] at hdeclared
      exact absurd rfl hdeclared
    · rw [ofKind_ofSymbols hclass, if_neg hstate]
      exact Named.declarations_mergeAll h

/-- A root class that is never declared is exported at the beginning of the stylesheet. -/
theorem declarations_root (h : Symbol.declarations .styleClass root symbols = []) :
    Named.declarations root ((ofSymbols policy nameSpace root symbols).ofKind .styleClass)
      = [⟨root, some implicitRootPosition⟩] := by
  rw [Symbol.declarations_styleClass, List.map_eq_nil_iff] at h
  rw [ofKind, ofSymbols, declarations_map_named,
    StyleClass.declarations_mergeAll List.mem_cons_self, StyleClass.merged, if_pos h]
  rfl

/-- A declared state is exported once in its class, at the position of the declaration that is
picked. -/
theorem declarations_allStates {className : String} {d : Named}
    (h : policy.pick (Symbol.stateDeclarations className x symbols) = some d) :
    Named.declarations x
        (StyleClass.allStates className (ofSymbols policy nameSpace root symbols).classes)
      = [⟨x, d.position⟩] := by
  have hdeclared := DuplicatePolicy.ne_nil_of_pick h
  have hclass : className ∈ root :: (symbols.filterMap Symbol.class?).map (·.name) := by
    by_contra hclass
    have hnone := StyleClass.declarations_eq_nil_iff.mpr fun h =>
      hclass (List.mem_cons_of_mem root h)
    rw [Symbol.stateDeclarations, StyleClass.allStates, hnone] at hdeclared
    exact hdeclared rfl
  rw [StyleClass.allStates, ofSymbols, StyleClass.declarations_mergeAll hclass,
    List.flatMap_singleton, StyleClass.merged]
  exact Named.declarations_mergeAll h

/-- What is exported was declared, or it is the root class. -/
theorem declared_of_mem_ofKind {kind : SymbolKind} {n : Named}
    (h : n ∈ (ofSymbols policy nameSpace root symbols).ofKind kind) :
    Symbol.declarations kind n.name symbols ≠ [] ∨ kind = .styleClass ∧ n.name = root := by
  by_cases hclass : kind = .styleClass
  · rw [hclass, ofKind, ofSymbols] at h
    obtain ⟨c, hc, rfl⟩ := List.mem_map.mp h
    obtain ⟨y, hy, rfl⟩ := List.mem_map.mp hc
    rcases List.mem_cons.mp (List.mem_eraseDups.mp hy) with rfl | hy
    · exact Or.inr ⟨hclass, rfl⟩
    · refine Or.inl fun hnone => ?_
      rw [hclass, Symbol.declarations_styleClass, List.map_eq_nil_iff] at hnone
      exact StyleClass.declarations_eq_nil_iff.mp hnone hy
  · rw [ofKind_ofSymbols hclass] at h
    split at h
    next => cases h
    next =>
      obtain ⟨y, hy, rfl⟩ := List.mem_map.mp h
      exact Or.inl fun hnone => Named.declarations_eq_nil_iff.mp hnone (List.mem_eraseDups.mp hy)

theorem declared_of_mem_states {c : StyleClass} {s : Named}
    (hc : c ∈ (ofSymbols policy nameSpace root symbols).classes) (hs : s ∈ c.states) :
    Symbol.stateDeclarations c.name s.name symbols ≠ [] := by
  rw [ofSymbols] at hc
  obtain ⟨y, -, rfl⟩ := List.mem_map.mp hc
  obtain ⟨z, hz, rfl⟩ := List.mem_map.mp hs
  exact fun hnone => Named.declarations_eq_nil_iff.mp hnone (List.mem_eraseDups.mp hz)

end OfSymbols

end Metadata

theorem CompiledSheet.checkedSymbols_eq_ok_iff {sheet : CompiledSheet} {symbols : List Symbol} :
    sheet.checkedSymbols = .ok symbols ↔ sheet.symbols = some symbols := by
  rw [checkedSymbols]
  cases sheet.symbols with
  | none => exact ⟨nofun, nofun⟩
  | some declared => exact ⟨fun h => congrArg some (Except.ok.inj h),
      fun h => congrArg Except.ok (Option.some.inj h)⟩

/-- A stylesheet that passes all checks is complete, up to the name of its root class. -/
theorem CompiledSheet.of_checked {sheet : CompiledSheet} {nameSpace root : String}
    {symbols : List Symbol} (h : sheet.checked = .ok (nameSpace, root, symbols)) :
    sheet.nameSpace = some nameSpace ∧ root = sheet.root.getD defaultRoot ∧
      sheet.symbols = some symbols := by
  obtain ⟨_, hnameSpace, h⟩ := bind_eq_ok_iff.mp h
  obtain ⟨_, hsymbols, h⟩ := bind_eq_ok_iff.mp h
  obtain ⟨_, hroot, h⟩ := bind_eq_ok_iff.mp h
  obtain ⟨⟨⟩, -, h⟩ := bind_eq_ok_iff.mp h
  cases h
  refine ⟨?_, ?_, checkedSymbols_eq_ok_iff.mp hsymbols⟩
  · rw [checkedNamespace] at hnameSpace
    split at hnameSpace
    next => cases hnameSpace
    next given hgiven =>
      split at hnameSpace
      next => cases hnameSpace
      next => rw [hgiven, Except.ok.inj hnameSpace]
  · rw [checkedRoot] at hroot
    split at hroot
    next => cases hroot
    next => exact (Except.ok.inj hroot).symm

/-- What a stylesheet that is accepted exports. -/
theorem CompiledSheet.eq_ofSymbols_of_normalize {policy : DuplicatePolicy} {sheet : CompiledSheet}
    {m : Metadata} (h : sheet.normalize policy = .ok m) :
    ∃ nameSpace symbols, sheet.nameSpace = some nameSpace ∧ sheet.symbols = some symbols ∧
      m = .ofSymbols policy nameSpace (sheet.root.getD defaultRoot) symbols := by
  rw [normalize_eq] at h
  obtain ⟨⟨nameSpace, root, symbols⟩, hchecked, rfl⟩ := map_eq_ok_iff.mp h
  obtain ⟨hnameSpace, rfl, hsymbols⟩ := of_checked hchecked
  exact ⟨nameSpace, symbols, hnameSpace, hsymbols, rfl⟩

end TypedStyles
