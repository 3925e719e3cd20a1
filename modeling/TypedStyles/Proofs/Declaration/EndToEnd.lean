import TypedStyles.Proofs.Declaration.Resolution
import TypedStyles.Proofs.Stylesheet.Surface

/-!
# From the stylesheet to its keys and back

In the declaration of a compiled stylesheet every declared name has one key, and
the source map leads the key back to the declaration that the policy picks
(`CompiledSheet.anchor?_generate`).

The entries of the keys are those of the metadata, so the keys of a kind and name
are found among the entries (`Metadata.filter_entries`,
`Metadata.filter_entries_state`).
-/

namespace TypedStyles

/-! ## Entries of a name -/

theorem filter_map_entry (kind : SymbolKind) (x : String) (own : SymbolKind)
    (owner : Option String) (ns : List Named) :
    (ns.map fun n => (⟨own, owner, n⟩ : Entry)).filter
        (fun e => e.kind = kind ∧ e.named.name = x)
      = if own = kind then (Named.declarations x ns).map (⟨own, owner, ·⟩) else [] := by
  rw [List.filter_map]
  by_cases h : own = kind
  · simp [h, Named.declarations, Function.comp_def]
  · simp [h, Function.comp_def]

theorem StyleClass.filter_flatMap_entries {kind : SymbolKind} (hkind : kind ≠ .state) (x : String)
    (cs : List StyleClass) :
    (cs.flatMap entries).filter (fun e => e.kind = kind ∧ e.named.name = x)
      = if .styleClass = kind then
          (Named.declarations x (cs.map named)).map (⟨.styleClass, none, ·⟩)
        else [] := by
  induction cs with
  | nil => simp [Named.declarations]
  | cons c cs ih =>
      have hstates := filter_map_entry kind x .state (some c.name) c.states
      rw [if_neg hkind.symm] at hstates
      have hclass := filter_map_entry kind x .styleClass none [c.named]
      rw [List.flatMap_cons, List.filter_append, ih, entries, ← List.singleton_append,
        List.filter_append, hstates, List.append_nil, ← List.map_singleton, hclass]
      by_cases h : SymbolKind.styleClass = kind
      · rw [if_pos h, if_pos h, if_pos h, ← List.map_append, Named.declarations,
          Named.declarations, Named.declarations, ← List.filter_append]
        rfl
      · rw [if_neg h, if_neg h, if_neg h, List.append_nil]

theorem StyleClass.allStates_cons (x : String) (c : StyleClass) (cs : List StyleClass) :
    allStates x (c :: cs) = if c.name = x then c.states ++ allStates x cs else allStates x cs := by
  rw [allStates, declarations, List.filter_cons]
  by_cases h : c.name = x
  · simp [h, allStates, declarations]
  · simp [h, allStates, declarations]

theorem StyleClass.filter_flatMap_entries_state (className state : String) (cs : List StyleClass) :
    (cs.flatMap entries).filter
        (fun e => e.kind = .state ∧ e.named.name = state ∧ e.owner = some className)
      = (Named.declarations state (allStates className cs)).map (⟨.state, some className, ·⟩) := by
  induction cs with
  | nil => rfl
  | cons c cs ih =>
      rw [List.flatMap_cons, List.filter_append, ih, entries, allStates_cons,
        List.filter_cons_of_neg (by simp), List.filter_map]
      by_cases h : c.name = className
      · simp [h, Named.declarations, Function.comp_def]
      · simp [h, Function.comp_def]

namespace Metadata

/-- The entries of a kind and name are the exported names of that kind. -/
theorem filter_entries (m : Metadata) {kind : SymbolKind} (hkind : kind ≠ .state) (x : String) :
    m.entries.filter (fun e => e.kind = kind ∧ e.named.name = x)
      = (Named.declarations x (m.ofKind kind)).map (⟨kind, none, ·⟩) := by
  simp only [entries, List.filter_append, StyleClass.filter_flatMap_entries hkind,
    filter_map_entry]
  cases kind with
  | styleClass => simp [ofKind]
  | state => exact absurd rfl hkind
  | stVar => simp [ofKind]
  | cssVar => simp [ofKind]
  | keyframes => simp [ofKind]

theorem filter_entries_state (m : Metadata) (className state : String) :
    m.entries.filter (fun e => e.kind = .state ∧ e.named.name = state ∧ e.owner = some className)
      = (Named.declarations state (StyleClass.allStates className m.classes)).map
          (⟨.state, some className, ·⟩) := by
  have hnone : ∀ (own : SymbolKind) (ns : List Named),
      (ns.map fun n => (⟨own, none, n⟩ : Entry)).filter
        (fun e => e.kind = .state ∧ e.named.name = state ∧ e.owner = some className) = [] := by
    intro own ns
    rw [List.filter_map]
    simp [Function.comp_def]
  rw [entries, List.filter_append, List.filter_append, List.filter_append,
    StyleClass.filter_flatMap_entries_state, hnone, hnone, hnone, List.append_nil,
    List.append_nil, List.append_nil]

theorem of_mem_entries {m : Metadata} {e : Entry} (h : e ∈ m.entries) :
    e.kind ≠ .state ∧ e.owner = none ∧ e.named ∈ m.ofKind e.kind ∨
      ∃ c ∈ m.classes, ∃ s ∈ c.states, e = ⟨.state, some c.name, s⟩ := by
  simp only [entries, List.mem_append, List.mem_flatMap, List.mem_map] at h
  rcases h with ((⟨c, hc, he⟩ | ⟨n, hn, rfl⟩) | ⟨n, hn, rfl⟩) | ⟨n, hn, rfl⟩
  · rcases List.mem_cons.mp he with rfl | he
    · exact Or.inl ⟨by simp, rfl, List.mem_map.mpr ⟨c, hc, rfl⟩⟩
    · obtain ⟨s, hs, rfl⟩ := List.mem_map.mp he
      exact Or.inr ⟨c, hc, s, hs, rfl⟩
  · exact Or.inl ⟨by simp, rfl, hn⟩
  · exact Or.inl ⟨by simp, rfl, hn⟩
  · exact Or.inl ⟨by simp, rfl, hn⟩

/-- If one entry meets a condition, one anchor does, and it leads back to the position of the
entry. -/
theorem exists_only_anchor {m : Metadata} {o : Options} {out : Output} (h : m.generate o = .ok out)
    (hlines : (out.declaration.toList.splitOn '\n').length < 0x100000000) {p : Entry → Bool}
    {e : Entry} (hp : m.entries.filter p = [e]) :
    ∃ a, out.anchors.find? (fun b => p b.entry) = some a ∧
      out.anchors.filter (fun b => p b.entry) = [a] ∧
      out.resolve? a = e.named.position.map (⟨o.sourceFile, ·, none⟩) := by
  rw [← map_entry_anchors h, List.filter_map, List.map_eq_singleton_iff] at hp
  obtain ⟨a, hfilter, hentry⟩ := hp
  have hmem : a ∈ out.anchors := by
    have ha : a ∈ out.anchors.filter (p ∘ Anchor.entry) := by
      rw [hfilter]
      exact List.mem_singleton_self a
    exact (List.mem_filter.mp ha).1
  refine ⟨a, ?_, hfilter, ?_⟩
  · rw [← List.head?_filter]
    exact congrArg List.head? hfilter
  · rw [resolve?_of_mem h hlines hmem, ← hentry]
    rfl

end Metadata

/-! ## Compiled stylesheets -/

/-- There is an output if the stylesheet has metadata and they have one. -/
theorem CompiledSheet.generate_eq_ok_iff {sheet : CompiledSheet} {o : Options} {out : Output} :
    sheet.generate o = .ok out ↔
      ∃ m, sheet.normalize o.duplicates = .ok m ∧ m.generate o = .ok out := by
  rw [generate, bind_eq_ok_iff]
  simp only [mapError_eq_ok_iff]

theorem CompiledSheet.exists_ofSymbols_of_generate {sheet : CompiledSheet} {o : Options}
    {out : Output} (h : sheet.generate o = .ok out) :
    ∃ nameSpace symbols, sheet.symbols = some symbols ∧
      (Metadata.ofSymbols o.duplicates nameSpace (sheet.root.getD defaultRoot) symbols).generate o
        = .ok out := by
  obtain ⟨m, hm, hout⟩ := generate_eq_ok_iff.mp h
  obtain ⟨nameSpace, symbols, -, hsymbols, rfl⟩ := eq_ofSymbols_of_normalize hm
  exact ⟨nameSpace, symbols, hsymbols, hout⟩

/-- **From end to end.**  A name that is declared has one key in the declaration, and the key
leads back to the declaration of the name that the policy picks, or to nothing if that
declaration has no position.  The same holds for a state in the declarations of its class.  A
root class that is never declared has a key that leads to the beginning of the stylesheet.  There
are no other keys. -/
theorem CompiledSheet.anchor?_generate {sheet : CompiledSheet} {o : Options} {out : Output}
    (h : sheet.generate o = .ok out)
    (hlines : (out.declaration.toList.splitOn '\n').length < 0x100000000) :
    ∃ symbols, sheet.symbols = some symbols ∧
      (∀ kind x d, o.duplicates.pick (Symbol.declarations kind x symbols) = some d →
        ∃ a, out.anchor? kind x = some a ∧
          out.anchors.filter (fun b => b.kind = kind ∧ b.name = x) = [a] ∧
          out.resolve? a = d.position.map (⟨o.sourceFile, ·, none⟩)) ∧
      (∀ c s d, o.duplicates.pick (Symbol.stateDeclarations c s symbols) = some d →
        ∃ a, out.stateAnchor? c s = some a ∧
          out.anchors.filter (fun b => b.kind = .state ∧ b.name = s ∧ b.owner = some c) = [a] ∧
          out.resolve? a = d.position.map (⟨o.sourceFile, ·, none⟩)) ∧
      (∀ root, sheet.root.getD defaultRoot = root →
        Symbol.declarations .styleClass root symbols = [] →
        ∃ a, out.anchor? .styleClass root = some a ∧
          out.anchors.filter (fun b => b.kind = .styleClass ∧ b.name = root) = [a] ∧
          out.resolve? a = some ⟨o.sourceFile, ⟨1, 0⟩, none⟩) ∧
      ∀ a ∈ out.anchors,
        a.kind ≠ .state ∧ a.owner = none ∧
            (Symbol.declarations a.kind a.name symbols ≠ [] ∨
              a.kind = .styleClass ∧ a.name = sheet.root.getD defaultRoot) ∨
          a.kind = .state ∧
            ∃ c, a.owner = some c ∧ Symbol.stateDeclarations c a.name symbols ≠ [] := by
  obtain ⟨nameSpace, symbols, hsymbols, hout⟩ := exists_ofSymbols_of_generate h
  refine ⟨symbols, hsymbols, ?_, ?_, ?_, ?_⟩
  · intro kind x d hd
    have hkind : kind ≠ .state := by
      rintro rfl
      exact DuplicatePolicy.ne_nil_of_pick hd (Symbol.declarations_state x symbols)
    have hentries := Metadata.filter_entries
      (.ofSymbols o.duplicates nameSpace (sheet.root.getD defaultRoot) symbols) hkind x
    rw [Metadata.declarations_ofKind hd] at hentries
    exact Metadata.exists_only_anchor hout hlines hentries
  · intro c s d hd
    have hentries := Metadata.filter_entries_state
      (.ofSymbols o.duplicates nameSpace (sheet.root.getD defaultRoot) symbols) c s
    rw [Metadata.declarations_allStates hd] at hentries
    exact Metadata.exists_only_anchor hout hlines hentries
  · rintro root rfl hroot
    have hkind : SymbolKind.styleClass ≠ .state := by simp
    have hentries := Metadata.filter_entries
      (.ofSymbols o.duplicates nameSpace (sheet.root.getD defaultRoot) symbols) hkind
      (sheet.root.getD defaultRoot)
    rw [Metadata.declarations_root hroot] at hentries
    exact Metadata.exists_only_anchor hout hlines hentries
  · intro a ha
    have hentry := List.mem_map_of_mem (f := Anchor.entry) ha
    rw [Metadata.map_entry_anchors hout] at hentry
    rcases Metadata.of_mem_entries hentry with ⟨hkind, howner, hmem⟩ | ⟨c, hc, s, hs, he⟩
    · exact Or.inl ⟨hkind, howner, Metadata.declared_of_mem_ofKind hmem⟩
    · refine Or.inr ⟨congrArg Entry.kind he, c.name, congrArg Entry.owner he, ?_⟩
      have hname : a.name = s.name := congrArg (·.named.name) he
      rw [hname]
      exact Metadata.declared_of_mem_states hc hs

/-- A class that is declared twice with one state, and no declaration of the root class. -/
def repeatedSheet : CompiledSheet where
  nameSpace := some "n"
  root := none
  symbols := some [.styleClass ⟨"a", some ⟨3, 2⟩, [⟨"on", some ⟨4, 0⟩⟩]⟩, .stVar ⟨"a", none⟩,
    .styleClass ⟨"a", some ⟨7, 1⟩, [⟨"on", some ⟨8, 5⟩⟩]⟩]

/-- What it exports if the last declaration wins. -/
def repeatedMetadata : Metadata where
  nameSpace := "n"
  classes := [⟨"root", some ⟨1, 0⟩, []⟩, ⟨"a", some ⟨7, 1⟩, [⟨"on", some ⟨8, 5⟩⟩]⟩]
  stVars := [⟨"a", none⟩]
  cssVars := []
  keyframes := []

theorem CompiledSheet.anchor?_generate_repeated :
    ∃ out, repeatedSheet.generate ⟨"a.css", .lastWins, .none⟩ = .ok out ∧
      (out.declaration.toList.splitOn '\n').length < 0x100000000 ∧
      (∃ a, out.anchor? .styleClass "a" = some a ∧
        out.resolve? a = some ⟨"a.css", ⟨7, 1⟩, none⟩) ∧
      (∃ a, out.stateAnchor? "a" "on" = some a ∧
        out.resolve? a = some ⟨"a.css", ⟨8, 5⟩, none⟩) ∧
      (∃ a, out.anchor? .stVar "a" = some a ∧ out.resolve? a = none) ∧
      ∃ a, out.anchor? .styleClass "root" = some a ∧
        out.resolve? a = some ⟨"a.css", ⟨1, 0⟩, none⟩ := by
  have hnormalize : repeatedSheet.normalize .lastWins = .ok repeatedMetadata :=
    toOption_eq_some_iff.mp (by decide +kernel)
  have hmappings : repeatedMetadata.mappings "a.css" = [mappingAt 6 5 1 0 "a.css",
      mappingAt 7 5 7 1 "a.css", mappingAt 8 9 8 5 "a.css"] := by decide +kernel
  obtain ⟨out, hgenerate⟩ :
      ∃ out, repeatedMetadata.generate ⟨"a.css", .lastWins, .none⟩ = .ok out :=
    Metadata.exists_generate hmappings (by decide) (by decide +kernel)
  have hlines : (out.declaration.toList.splitOn '\n').length < 0x100000000 := by
    rw [Metadata.length_splitOn_declaration hgenerate]
    decide
  have hout : repeatedSheet.generate ⟨"a.css", .lastWins, .none⟩ = .ok out :=
    CompiledSheet.generate_eq_ok_iff.mpr ⟨_, hnormalize, hgenerate⟩
  obtain ⟨symbols, hsymbols, hkinds, hstates, hroot, -⟩ :=
    CompiledSheet.anchor?_generate hout hlines
  obtain rfl := Option.some.inj hsymbols
  obtain ⟨a, ha, -, hresolve⟩ := hkinds .styleClass "a" ⟨"a", some ⟨7, 1⟩⟩ (by decide)
  obtain ⟨b, hb, -, hresolveState⟩ := hstates "a" "on" ⟨"on", some ⟨8, 5⟩⟩ (by decide)
  obtain ⟨v, hv, -, hresolveVar⟩ := hkinds .stVar "a" ⟨"a", none⟩ (by decide)
  obtain ⟨r, hr, -, hresolveRoot⟩ := hroot "root" rfl (by decide)
  exact ⟨out, hout, hlines, ⟨a, ha, hresolve⟩, ⟨b, hb, hresolveState⟩, ⟨v, hv, hresolveVar⟩,
    ⟨r, hr, hresolveRoot⟩⟩

end TypedStyles
