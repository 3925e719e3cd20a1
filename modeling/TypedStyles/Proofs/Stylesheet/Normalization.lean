import TypedStyles.Proofs.Stylesheet.Surface

/-!
# What normalizing keeps of the declarations

The metadata of a stylesheet is told by its declarations, kind by kind
(`CompiledSheet.normalize_merges`).  `Named.Merges` and `StyleClass.Merges` say
what the exported records are without saying how they are put together.  Either
leaves one list of records for one list of declarations, so the declarations of
one kind, or the states of one class, tell nothing about another.
-/

namespace TypedStyles

/-! ## Names -/

/-- The records merge the declarations `ds` of names. -/
structure Named.Merges (policy : DuplicatePolicy) (ds ns : List Named) : Prop where
  /-- Every declared name has a record, in the order of first declaration. -/
  names : ns.map (·.name) = (ds.map (·.name)).eraseDups
  /-- No name has two records. -/
  nodup : (ns.map (·.name)).Nodup
  /-- A record has the position, if any, of the declaration that the policy picks. -/
  position : ∀ n ∈ ns, ∃ d, policy.pick (declarations n.name ds) = some d ∧ n.position = d.position

theorem DuplicatePolicy.exists_pick {α : Type} (policy : DuplicatePolicy) {ds : List α}
    (h : ds ≠ []) : ∃ d, policy.pick ds = some d :=
  Option.ne_none_iff_exists'.mp fun hnone => h (pick_eq_none_iff.mp hnone)

theorem DuplicatePolicy.mem_of_pick {α : Type} {policy : DuplicatePolicy} {ds : List α} {d : α}
    (h : policy.pick ds = some d) : d ∈ ds := by
  cases policy with
  | firstWins => exact List.mem_of_head? h
  | lastWins => exact List.mem_of_getLast? h

theorem Named.merges_mergeAll (policy : DuplicatePolicy) (ds : List Named) :
    Merges policy ds (mergeAll policy ds) := by
  have hnames : (mergeAll policy ds).map (·.name) = (ds.map (·.name)).eraseDups := by
    rw [mergeAll, List.map_map]
    exact List.map_id _
  refine ⟨hnames, hnames ▸ nodup_eraseDups _, fun n hn => ?_⟩
  obtain ⟨x, hx, rfl⟩ := List.mem_map.mp hn
  obtain ⟨d, hd⟩ := policy.exists_pick fun hnone =>
    declarations_eq_nil_iff.mp hnone (List.mem_eraseDups.mp hx)
  refine ⟨d, hd, ?_⟩
  rw [merged, hd]
  rfl

/-- A merged record is one of the declarations. -/
theorem Named.Merges.subset {policy : DuplicatePolicy} {ds ns : List Named}
    (h : Merges policy ds ns) : ns ⊆ ds := by
  intro n hn
  obtain ⟨d, hd, hplace⟩ := h.position n hn
  obtain ⟨hmem, hname⟩ := List.mem_filter.mp (DuplicatePolicy.mem_of_pick hd)
  have hsame : d = n := by
    show Named.mk d.name d.position = n
    rw [of_decide_eq_true hname, ← hplace]
  exact hsame ▸ hmem

/-! ## Classes -/

/-- The records merge the declarations `ds` of classes, where `root` names the root class. -/
structure StyleClass.Merges (policy : DuplicatePolicy) (root : String) (ds cs : List StyleClass) :
    Prop where
  /-- The root class is first, and every other declared class follows in the order of first
  declaration. -/
  names : cs.map (·.name) = root :: ((ds.map (·.name)).filter (· ≠ root)).eraseDups
  /-- No class has two records. -/
  nodup : (cs.map (·.name)).Nodup
  /-- The states of a class merge the states of all its declarations. -/
  states : ∀ c ∈ cs, Named.Merges policy (allStates c.name ds) c.states
  /-- A class has the position, if any, of the declaration that the policy picks.  Only the root
  class can be without declarations, and then it is at the beginning of the stylesheet. -/
  position : ∀ c ∈ cs,
    (∃ d, policy.pick (declarations c.name ds) = some d ∧ c.position = d.position) ∨
      declarations c.name ds = [] ∧ c.name = root ∧ c.position = some ⟨1, 0⟩
  /-- The root class is at the beginning of the stylesheet exactly when it is not declared, unless
  the declaration that the policy picks is there itself. -/
  root : ∀ c ∈ cs, c.name = root → (c.position = some ⟨1, 0⟩ ↔
    root ∉ ds.map (·.name) ∨
      ∃ d, policy.pick (declarations root ds) = some d ∧ d.position = some ⟨1, 0⟩)

theorem StyleClass.names_mergeAll (policy : DuplicatePolicy) (root : String)
    (ds : List StyleClass) :
    (mergeAll policy root ds).map (·.name) = (root :: ds.map (·.name)).eraseDups := by
  rw [mergeAll, List.map_map]
  exact List.map_id _

/-- A merged class is declared, or it is the root class. -/
theorem StyleClass.position_mergeAll {policy : DuplicatePolicy} {root : String}
    {ds : List StyleClass} {c : StyleClass} (hc : c ∈ mergeAll policy root ds) :
    (∃ d, policy.pick (declarations c.name ds) = some d ∧ c.position = d.position) ∨
      declarations c.name ds = [] ∧ c.name = root ∧ c.position = some ⟨1, 0⟩ := by
  obtain ⟨x, hx, rfl⟩ := List.mem_map.mp hc
  have hname : (merged policy ds x).name = x := rfl
  rw [hname, merged]
  by_cases hnone : declarations x ds = []
  · have hroot : x = root := (List.mem_cons.mp (List.mem_eraseDups.mp hx)).resolve_right
      (declarations_eq_nil_iff.mp hnone)
    rw [if_pos hnone]
    exact Or.inr ⟨hnone, hroot, rfl⟩
  · obtain ⟨d, hd⟩ := policy.exists_pick hnone
    rw [if_neg hnone, hd]
    exact Or.inl ⟨d, rfl, rfl⟩

theorem StyleClass.merges_mergeAll (policy : DuplicatePolicy) (root : String)
    (ds : List StyleClass) : Merges policy root ds (mergeAll policy root ds) := by
  have hnames := names_mergeAll policy root ds
  constructor
  · rw [hnames, List.eraseDups_cons]
    congr 2
    apply List.filter_congr
    intro x _
    rw [decide_not]
    rfl
  · exact hnames ▸ nodup_eraseDups _
  · intro c hc
    obtain ⟨x, -, rfl⟩ := List.mem_map.mp hc
    exact Named.merges_mergeAll policy (allStates x ds)
  · exact fun c hc => position_mergeAll hc
  · rintro c hc rfl
    rw [← declarations_eq_nil_iff]
    rcases position_mergeAll hc with ⟨d, hd, hplace⟩ | ⟨hnone, -, hplace⟩
    · have hdeclared := DuplicatePolicy.ne_nil_of_pick hd
      rw [hplace, hd]
      simp [hdeclared]
    · exact ⟨fun _ => Or.inl hnone, fun _ => hplace⟩

theorem StyleClass.Merges.position_of_pick {policy : DuplicatePolicy} {root : String}
    {ds cs : List StyleClass} (h : Merges policy root ds cs) {c d : StyleClass} (hc : c ∈ cs)
    (hd : policy.pick (declarations c.name ds) = some d) : c.position = d.position := by
  rcases h.position c hc with ⟨e, he, hplace⟩ | ⟨hnone, -, -⟩
  · rw [hplace, Option.some.inj (he.symm.trans hd)]
  · exact absurd hnone (DuplicatePolicy.ne_nil_of_pick hd)

/-- A merged class is one of the declarations, up to the states, or it is the root class that is
not declared. -/
theorem StyleClass.Merges.named_mem {policy : DuplicatePolicy} {root : String}
    {ds cs : List StyleClass} (h : Merges policy root ds cs) {c : StyleClass} (hc : c ∈ cs) :
    c.named ∈ ds.map named ∨ c.named = ⟨root, some ⟨1, 0⟩⟩ := by
  rcases h.position c hc with ⟨d, hd, hplace⟩ | ⟨-, hname, hplace⟩
  · obtain ⟨hmem, hname⟩ := List.mem_filter.mp (DuplicatePolicy.mem_of_pick hd)
    left
    rw [named, hplace, ← of_decide_eq_true hname]
    exact List.mem_map_of_mem hmem
  · right
    rw [named, hname, hplace]

/-! ## Stylesheets -/

/-- **Normalizing is merging.**  An accepted stylesheet exports its own namespace, and the records
of each kind merge the declarations of that kind. -/
theorem CompiledSheet.normalize_merges {policy : DuplicatePolicy} {sheet : CompiledSheet}
    {m : Metadata} (h : sheet.normalize policy = .ok m) :
    ∃ symbols, sheet.symbols = some symbols ∧ sheet.nameSpace = some m.nameSpace ∧
      StyleClass.Merges policy (sheet.root.getD "root") (symbols.filterMap Symbol.class?)
        m.classes ∧
      Named.Merges policy (symbols.filterMap Symbol.stVar?) m.stVars ∧
      Named.Merges policy (symbols.filterMap Symbol.cssVar?) m.cssVars ∧
      Named.Merges policy (symbols.filterMap Symbol.keyframes?) m.keyframes := by
  obtain ⟨nameSpace, symbols, hnameSpace, hsymbols, rfl⟩ := eq_ofSymbols_of_normalize h
  exact ⟨symbols, hsymbols, hnameSpace, StyleClass.merges_mergeAll policy _ _,
    Named.merges_mergeAll policy _, Named.merges_mergeAll policy _, Named.merges_mergeAll policy _⟩

/-- A class that is declared on both sides of the root class, and names that two kinds share. -/
def interleavedSheet : CompiledSheet where
  nameSpace := some "n"
  root := none
  symbols := some [.styleClass ⟨"a", some ⟨3, 2⟩, [⟨"x", some ⟨4, 0⟩⟩, ⟨"x", none⟩]⟩,
    .stVar ⟨"a", none⟩, .styleClass ⟨"root", none, []⟩,
    .styleClass ⟨"a", some ⟨7, 1⟩, [⟨"y", none⟩, ⟨"x", some ⟨8, 5⟩⟩]⟩, .keyframes ⟨"x", none⟩]

theorem CompiledSheet.normalize_merges_interleaved :
    ∃ m, interleavedSheet.normalize .lastWins = .ok m ∧
      m.classes.map (·.name) = ["root", "a"] ∧
      (∀ c ∈ m.classes, c.name = "a" → c.position = some ⟨7, 1⟩ ∧
        c.states.map (·.name) = ["x", "y"]) ∧
      (∀ c ∈ m.classes, c.name = "root" → c.position = none) ∧
      m.stVars.map (·.name) = ["a"] ∧ m.cssVars.map (·.name) = [] ∧
      m.keyframes.map (·.name) = ["x"] := by
  obtain ⟨m, hm⟩ : ∃ m, interleavedSheet.normalize .lastWins = .ok m :=
    ⟨⟨"n", [⟨"root", none, []⟩,
      ⟨"a", some ⟨7, 1⟩, [⟨"x", some ⟨8, 5⟩⟩, ⟨"y", none⟩]⟩], [⟨"a", none⟩], [], [⟨"x", none⟩]⟩,
      toOption_eq_some_iff.mp (by decide +kernel)⟩
  obtain ⟨symbols, hsymbols, -, hclasses, hstVars, hcssVars, hkeyframes⟩ := normalize_merges hm
  obtain rfl := Option.some.inj hsymbols
  refine ⟨m, hm, hclasses.names.trans (by decide +kernel), fun c hc hname => ⟨?_, ?_⟩,
    fun c hc hname => ?_, hstVars.names.trans (by decide +kernel),
    hcssVars.names.trans (by decide +kernel), hkeyframes.names.trans (by decide +kernel)⟩
  · exact hclasses.position_of_pick hc (d := ⟨"a", some ⟨7, 1⟩, [⟨"y", none⟩, ⟨"x", some ⟨8, 5⟩⟩]⟩)
      (by rw [hname]; decide +kernel)
  · have hstates := (hclasses.states c hc).names
    rw [hname] at hstates
    exact hstates.trans (by decide +kernel)
  · exact hclasses.position_of_pick hc (d := ⟨"root", none, []⟩) (by rw [hname]; decide +kernel)

/-- The root class is declared where a stylesheet begins, and so it is there although it is
declared. -/
theorem CompiledSheet.normalize_declared_root :
    ∃ m, normalize .firstWins ⟨some "n", none, some [.styleClass ⟨"root", some ⟨1, 0⟩, []⟩]⟩
        = .ok m ∧
      ¬ ∀ c ∈ m.classes, c.name = "root" → (c.position = some ⟨1, 0⟩ ↔
        ∀ d, .styleClass d ∈ [Symbol.styleClass ⟨"root", some ⟨1, 0⟩, []⟩] → d.name ≠ "root") := by
  refine ⟨⟨"n", [⟨"root", some ⟨1, 0⟩, []⟩], [], [], []⟩,
    toOption_eq_some_iff.mp (by decide +kernel), fun h => ?_⟩
  have hundeclared := (h _ List.mem_cons_self rfl).mp rfl
  exact hundeclared _ List.mem_cons_self rfl

end TypedStyles
