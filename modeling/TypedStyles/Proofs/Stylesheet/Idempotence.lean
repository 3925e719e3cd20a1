import TypedStyles.Proofs.Stylesheet.Faults

/-!
# Normalizing twice

Metadata can be turned back into declarations, one for each record.  The kinds
may be mixed in any way, as long as the records of one kind keep their order
(`Metadata.Interleaves`).  If the root class is named as the first class, the
stylesheet exports the metadata again, whichever policy is in force
(`CompiledSheet.normalize_redeclared`).

Two properties of metadata carry this.  They are sound, so that nothing is
rejected, and the names of a list are all different, so that nothing is merged
(`Metadata.Distinct`).  The kinds are merged apart from each other, so how they
are mixed does not matter.  The root class is declared now, even if it was not
before, and its declaration has the position it was given, or none.
-/

namespace TypedStyles

/-! ## Merging names that are all different -/

theorem filter_name_of_nodup {α : Type} {name : α → String} {as : List α}
    (h : (as.map name).Nodup) {a : α} (ha : a ∈ as) :
    as.filter (fun b => name b = name a) = [a] := by
  induction as with
  | nil => cases ha
  | cons b as ih =>
      obtain ⟨hb, has⟩ := List.nodup_cons.mp h
      rcases List.mem_cons.mp ha with rfl | ha
      · rw [List.filter_cons_of_pos (by simp), filter_name_eq_nil_iff.mpr hb]
      · have hne : name b ≠ name a := fun heq => hb (heq ▸ List.mem_map_of_mem ha)
        rw [List.filter_cons_of_neg (by simpa using hne), ih has ha]

theorem DuplicatePolicy.pick_singleton {α : Type} (policy : DuplicatePolicy) (d : α) :
    policy.pick [d] = some d := by
  cases policy with
  | firstWins => rfl
  | lastWins => rfl

theorem Named.mergeAll_of_nodup (policy : DuplicatePolicy) {ns : List Named}
    (h : (ns.map (·.name)).Nodup) : mergeAll policy ns = ns := by
  have hself : ∀ n ∈ ns, merged policy ns n.name = n := by
    intro n hn
    rw [merged, declarations, filter_name_of_nodup h hn, policy.pick_singleton]
    rfl
  rw [mergeAll, eraseDups_of_nodup h, List.map_map]
  exact (List.map_congr_left hself).trans (List.map_id ns)

/-- Classes that are all different stay as they are, if the first one is the root class. -/
theorem StyleClass.mergeAll_of_nodup (policy : DuplicatePolicy) {c : StyleClass}
    {cs : List StyleClass} (h : ((c :: cs).map (·.name)).Nodup)
    (hstates : ∀ d ∈ c :: cs, (d.states.map (·.name)).Nodup) :
    mergeAll policy c.name (c :: cs) = c :: cs := by
  have hself : ∀ d ∈ c :: cs, merged policy (c :: cs) d.name = d := by
    intro d hd
    have hone : declarations d.name (c :: cs) = [d] := filter_name_of_nodup h hd
    rw [merged, allStates, hone, if_neg (List.cons_ne_nil d []),
      policy.pick_singleton, List.flatMap_singleton, Named.mergeAll_of_nodup policy (hstates d hd)]
    rfl
  rw [mergeAll, List.map_cons, eraseDups_cons_self, ← List.map_cons, eraseDups_of_nodup h,
    List.map_map]
  exact (List.map_congr_left hself).trans (List.map_id (c :: cs))

/-! ## Metadata as declarations -/

namespace Metadata

/-- The names of every list are all different. -/
structure Distinct (m : Metadata) : Prop where
  classes : (m.classes.map (·.name)).Nodup
  states : ∀ c ∈ m.classes, (c.states.map (·.name)).Nodup
  stVars : (m.stVars.map (·.name)).Nodup
  cssVars : (m.cssVars.map (·.name)).Nodup
  keyframes : (m.keyframes.map (·.name)).Nodup

/-- The declarations of each kind are the records of that kind, in their order. -/
structure Interleaves (m : Metadata) (symbols : List Symbol) : Prop where
  classes : symbols.filterMap Symbol.class? = m.classes
  stVars : symbols.filterMap Symbol.stVar? = m.stVars
  cssVars : symbols.filterMap Symbol.cssVar? = m.cssVars
  keyframes : symbols.filterMap Symbol.keyframes? = m.keyframes

/-- The stylesheet that declares the metadata, where the first class is the root class. -/
def redeclared (m : Metadata) (symbols : List Symbol) : CompiledSheet where
  nameSpace := some m.nameSpace
  root := m.classes.head?.map (·.name)
  symbols := some symbols

variable {m : Metadata} {symbols : List Symbol}

/-- Merging leaves no name twice. -/
theorem distinct_ofSymbols (policy : DuplicatePolicy) (nameSpace root : String)
    (symbols : List Symbol) : (ofSymbols policy nameSpace root symbols).Distinct := by
  have hclasses := StyleClass.merges_mergeAll policy root (symbols.filterMap Symbol.class?)
  have hgroup := fun ns => (Named.merges_mergeAll policy ns).nodup
  exact ⟨hclasses.nodup, fun c hc => (hclasses.states c hc).nodup, hgroup _, hgroup _, hgroup _⟩

/-- Records that are all different are merged into themselves. -/
theorem Distinct.ofSymbols_eq (h : m.Distinct) (hsymbols : m.Interleaves symbols)
    {c : StyleClass} {cs : List StyleClass} (hroot : m.classes = c :: cs)
    (policy : DuplicatePolicy) : ofSymbols policy m.nameSpace c.name symbols = m := by
  have hclasses := h.classes
  have hstates := h.states
  rw [hroot] at hclasses hstates
  rw [ofSymbols, hsymbols.classes, hsymbols.stVars, hsymbols.cssVars, hsymbols.keyframes,
    Named.mergeAll_of_nodup policy h.stVars, Named.mergeAll_of_nodup policy h.cssVars,
    Named.mergeAll_of_nodup policy h.keyframes, hroot,
    StyleClass.mergeAll_of_nodup policy hclasses hstates, ← hroot]

/-- Sound metadata have sound records only. -/
theorem Sound.records (h : m.Sound) (hsymbols : m.Interleaves symbols) {symbol : Symbol}
    (hsymbol : symbol ∈ symbols) : ∀ r ∈ symbol.records, r.2.Sound := by
  cases symbol with
  | styleClass c =>
      have hc : c ∈ m.classes :=
        hsymbols.classes ▸ List.mem_filterMap.mpr ⟨_, hsymbol, rfl⟩
      rw [Symbol.records, List.forall_mem_cons, List.forall_mem_map]
      exact ⟨h.names .styleClass _ (List.mem_map_of_mem hc), h.states c hc⟩
  | stVar n =>
      have hn : n ∈ m.stVars := hsymbols.stVars ▸ List.mem_filterMap.mpr ⟨_, hsymbol, rfl⟩
      exact List.forall_mem_singleton.mpr (h.names .stVar n hn)
  | cssVar n =>
      have hn : n ∈ m.cssVars := hsymbols.cssVars ▸ List.mem_filterMap.mpr ⟨_, hsymbol, rfl⟩
      exact List.forall_mem_singleton.mpr (h.names .cssVar n hn)
  | keyframes n =>
      have hn : n ∈ m.keyframes := hsymbols.keyframes ▸ List.mem_filterMap.mpr ⟨_, hsymbol, rfl⟩
      exact List.forall_mem_singleton.mpr (h.names .keyframes n hn)

end Metadata

/-! ## Normalizing twice -/

namespace CompiledSheet

variable {policy : DuplicatePolicy} {sheet : CompiledSheet} {m : Metadata}

theorem distinct_of_normalize (h : sheet.normalize policy = .ok m) : m.Distinct := by
  obtain ⟨-, rfl⟩ := normalize_eq_ok_iff.mp h
  exact Metadata.distinct_ofSymbols policy _ _ _

theorem exists_first_class (h : sheet.normalize policy = .ok m) :
    ∃ c cs, m.classes = c :: cs := by
  obtain ⟨c, hc, -⟩ := Option.map_eq_some_iff.mp (head?_classes_of_normalize h)
  obtain ⟨cs, hclasses⟩ := List.head?_eq_some_iff.mp hc
  exact ⟨c, cs, hclasses⟩

/-- **Normalizing twice is normalizing once.**  Metadata of a stylesheet have a first class.  If
they are declared again with that class as the root class, in any order that keeps the order of the
records of each kind, then under either policy the metadata are the same. -/
theorem normalize_redeclared (h : sheet.normalize policy = .ok m) :
    m.classes ≠ [] ∧ ∀ symbols, m.Interleaves symbols →
      ∀ policy', (m.redeclared symbols).normalize policy' = .ok m := by
  obtain ⟨c, cs, hroot⟩ := exists_first_class h
  have hsound := sound_of_normalize h
  refine ⟨hroot ▸ List.cons_ne_nil c cs, fun symbols hsymbols policy' => ?_⟩
  rw [normalize_eq_ok_iff, faults_eq_nil_iff]
  have hname : c.name ≠ "" := by
    have hc : c.named ∈ m.ofKind .styleClass := by
      rw [Metadata.ofKind, hroot]
      exact List.mem_cons_self
    exact (hsound.names .styleClass c.named hc).1
  refine ⟨⟨⟨?_, ?_⟩, ?_, ?_, fun symbol hsymbol => hsound.records hsymbols hsymbol⟩, ?_⟩
  · exact Option.some_ne_none _
  · exact fun hs => hsound.nameSpace (Option.some.inj hs)
  · exact Option.some_ne_none _
  · rw [Metadata.redeclared, hroot]
    exact fun hs => hname (Option.some.inj hs)
  · have hsame := (distinct_of_normalize h).ofSymbols_eq hsymbols hroot policy'
    simpa [Metadata.redeclared, hroot] using hsame

/-- A class without a position before the root class, which is never declared, and two kinds that
share a name. -/
def implicitRootSheet : CompiledSheet where
  nameSpace := some "n"
  root := some "main"
  symbols := some [.keyframes ⟨"a", some ⟨2, 1⟩⟩,
    .styleClass ⟨"a", none, [⟨"x", some ⟨4, 0⟩⟩, ⟨"y", none⟩, ⟨"x", none⟩]⟩, .cssVar ⟨"--a", none⟩]

/-- The metadata declare the root class, and the records may be mixed in another way. -/
theorem normalize_redeclared_implicit_root :
    ∃ m, implicitRootSheet.normalize .firstWins = .ok m ∧
      m.classes.head? = some ⟨"main", some ⟨1, 0⟩, []⟩ ∧
      ∃ symbols, m.Interleaves symbols ∧ symbols.head? = some (.cssVar ⟨"--a", none⟩) ∧
        (m.redeclared symbols).normalize .lastWins = .ok m := by
  obtain ⟨m, hm, hclasses, hstVars, hcssVars, hkeyframes⟩ : ∃ m,
      implicitRootSheet.normalize .firstWins = .ok m ∧
      m.classes = [⟨"main", some ⟨1, 0⟩, []⟩, ⟨"a", none, [⟨"x", some ⟨4, 0⟩⟩, ⟨"y", none⟩]⟩] ∧
      m.stVars = [] ∧ m.cssVars = [⟨"--a", none⟩] ∧ m.keyframes = [⟨"a", some ⟨2, 1⟩⟩] :=
    ⟨⟨"n", [⟨"main", some ⟨1, 0⟩, []⟩, ⟨"a", none, [⟨"x", some ⟨4, 0⟩⟩, ⟨"y", none⟩]⟩], [],
      [⟨"--a", none⟩], [⟨"a", some ⟨2, 1⟩⟩]⟩, toOption_eq_some_iff.mp (by decide +kernel), rfl, rfl,
      rfl, rfl⟩
  have hmixed : m.Interleaves [.cssVar ⟨"--a", none⟩, .styleClass ⟨"main", some ⟨1, 0⟩, []⟩,
      .keyframes ⟨"a", some ⟨2, 1⟩⟩,
      .styleClass ⟨"a", none, [⟨"x", some ⟨4, 0⟩⟩, ⟨"y", none⟩]⟩] :=
    ⟨hclasses.symm, hstVars.symm, hcssVars.symm, hkeyframes.symm⟩
  exact ⟨m, hm, hclasses ▸ rfl, _, hmixed, rfl, (normalize_redeclared hm).2 _ hmixed .lastWins⟩

end CompiledSheet

end TypedStyles
