import TypedStyles.Proofs.Stylesheet.Normalization

/-!
# Faults of a stylesheet

`CompiledSheet.faults` lists everything that is wrong with a stylesheet, in the
order in which it is looked for: the namespace, the list of declarations, the
name of the root class, and then the declarations in turn.  Of a class its own
name and position come before its states, and of every record the name comes
before the position.

A stylesheet is rejected for the first of its faults, and it has metadata if it
has none (`CompiledSheet.normalize_eq_map`).  Merging cannot hide a fault, since
every record is checked before it is merged, and it cannot bring one back, since
a merged record is one of the declarations (`Named.Merges.subset`).  So metadata
are sound (`CompiledSheet.normalize_fails_iff`).
-/

namespace TypedStyles

/-! ## The first of some faults -/

section FirstOf

variable {ε α : Type}

/-- Fail with the first of some faults. -/
def firstOf : List ε → Except ε Unit
  | [] => .ok ()
  | e :: _ => .error e

theorem firstOf_eq_error_iff {es : List ε} {e : ε} :
    firstOf es = .error e ↔ es.head? = some e := by
  cases es with
  | nil => simp [firstOf]
  | cons e' es => simp [firstOf]

theorem firstOf_eq_ok_iff {es : List ε} : firstOf es = .ok () ↔ es = [] := by
  cases es with
  | nil => simp [firstOf]
  | cons e es => simp [firstOf]

theorem firstOf_append (es fs : List ε) :
    firstOf (es ++ fs) = firstOf es >>= fun _ => firstOf fs := by
  cases es with
  | nil => rfl
  | cons e es => rfl

/-- Checks in turn fail with the first fault of all. -/
theorem forM_eq_firstOf {check : α → Except ε Unit} {faults : α → List ε}
    (h : ∀ x, check x = firstOf (faults x)) (xs : List α) :
    xs.forM check = firstOf (xs.flatMap faults) := by
  induction xs with
  | nil => rfl
  | cons x xs ih =>
      rw [List.flatMap_cons, firstOf_append, ← h, ← ih]
      rfl

end FirstOf

/-! ## Records -/

namespace Named

/-- The record has a name, and a position only with a line. -/
def Sound (n : Named) : Prop := n.name ≠ "" ∧ ∀ place ∈ n.position, place.line ≠ 0

/-- What is wrong with a record. -/
def faults (kind : SymbolKind) (n : Named) : List MetadataError :=
  (if n.name = "" then [.emptyName kind] else []) ++
    if n.position.any (·.line = 0) then [.lineZero kind n.name] else []

theorem faults_eq_nil_iff {kind : SymbolKind} {n : Named} : n.faults kind = [] ↔ n.Sound := by
  cases hplace : n.position with
  | none => simp [faults, Sound, hplace]
  | some place => simp [faults, Sound, hplace]

theorem not_sound_iff {n : Named} :
    ¬ n.Sound ↔ n.name = "" ∨ ∃ place, n.position = some place ∧ place.line = 0 := by
  simp [Sound, Decidable.imp_iff_not_or]

theorem check_eq (kind : SymbolKind) (n : Named) : n.check kind = firstOf (n.faults kind) := by
  rw [check, faults]
  split
  next => rfl
  next =>
    split
    next => rfl
    next => rfl

end Named

namespace Symbol

/-- The records of a declaration.  The states of a class come after the class. -/
def records : Symbol → List (SymbolKind × Named)
  | .styleClass c => (.styleClass, c.named) :: c.states.map (.state, ·)
  | .stVar n => [(.stVar, n)]
  | .cssVar n => [(.cssVar, n)]
  | .keyframes n => [(.keyframes, n)]

theorem mem_records_of_named? {kind : SymbolKind} {symbol : Symbol} {n : Named}
    (h : symbol.named? kind = some n) : (kind, n) ∈ symbol.records := by
  cases symbol with
  | styleClass c =>
      cases kind with
      | styleClass =>
          rw [← Option.some.inj h]
          exact List.mem_cons_self
      | state | stVar | cssVar | keyframes => cases h
  | stVar v =>
      cases kind with
      | stVar =>
          rw [← Option.some.inj h]
          exact List.mem_singleton_self _
      | styleClass | state | cssVar | keyframes => cases h
  | cssVar v =>
      cases kind with
      | cssVar =>
          rw [← Option.some.inj h]
          exact List.mem_singleton_self _
      | styleClass | state | stVar | keyframes => cases h
  | keyframes v =>
      cases kind with
      | keyframes =>
          rw [← Option.some.inj h]
          exact List.mem_singleton_self _
      | styleClass | state | stVar | cssVar => cases h

/-- What is wrong with a declaration, record by record. -/
def faults (symbol : Symbol) : List MetadataError :=
  symbol.records.flatMap fun (kind, n) => n.faults kind

theorem faults_eq_nil_iff {symbol : Symbol} :
    symbol.faults = [] ↔ ∀ r ∈ symbol.records, r.2.Sound := by
  simp only [faults, List.flatMap_eq_nil_iff, Named.faults_eq_nil_iff]

theorem check_eq (symbol : Symbol) : symbol.check = firstOf symbol.faults := by
  cases symbol with
  | styleClass c =>
      have hstates := forM_eq_firstOf (Named.check_eq .state) c.states
      rw [check, faults, records, List.flatMap_cons, List.flatMap_map, firstOf_append, hstates,
        Named.check_eq]
  | stVar n => rw [check, faults, records, List.flatMap_singleton, Named.check_eq]
  | cssVar n => rw [check, faults, records, List.flatMap_singleton, Named.check_eq]
  | keyframes n => rw [check, faults, records, List.flatMap_singleton, Named.check_eq]

end Symbol

/-! ## Stylesheets -/

namespace CompiledSheet

/-- What is wrong with the namespace. -/
def nameSpaceFaults (sheet : CompiledSheet) : List MetadataError :=
  match sheet.nameSpace with
  | none => [.missingNamespace]
  | some s => if s = "" then [.emptyNamespace] else []

/-- What is wrong with the list of declarations, apart from the declarations. -/
def symbolsFaults (sheet : CompiledSheet) : List MetadataError :=
  if sheet.symbols = none then [.missingSymbols] else []

/-- What is wrong with the name of the root class. -/
def rootFaults (sheet : CompiledSheet) : List MetadataError :=
  if sheet.root = some "" then [.emptyRoot] else []

/-- What is wrong with a stylesheet, in the order in which it is looked for. -/
def faults (sheet : CompiledSheet) : List MetadataError :=
  sheet.nameSpaceFaults ++ sheet.symbolsFaults ++ sheet.rootFaults ++
    (sheet.symbols.getD []).flatMap Symbol.faults

variable (sheet : CompiledSheet)

theorem checkedNamespace_eq_map :
    sheet.checkedNamespace
      = (fun _ => sheet.nameSpace.getD "") <$> firstOf sheet.nameSpaceFaults := by
  rw [checkedNamespace, nameSpaceFaults]
  cases sheet.nameSpace with
  | none => rfl
  | some s =>
      by_cases hs : s = ""
      · simp [hs, firstOf]
      · simp [hs, firstOf]

theorem checkedSymbols_eq_map :
    sheet.checkedSymbols = (fun _ => sheet.symbols.getD []) <$> firstOf sheet.symbolsFaults := by
  rw [checkedSymbols, symbolsFaults]
  cases sheet.symbols with
  | none => rfl
  | some symbols => rfl

theorem checkedRoot_eq_map :
    sheet.checkedRoot = (fun _ => sheet.root.getD defaultRoot) <$> firstOf sheet.rootFaults := by
  rw [checkedRoot, rootFaults]
  cases sheet.root with
  | none => rfl
  | some s =>
      by_cases hs : s = ""
      · simp [hs, firstOf]
      · simp [hs, firstOf]

/-- A stylesheet is checked for its first fault. -/
theorem checked_eq_map :
    sheet.checked = (fun _ => (sheet.nameSpace.getD "", sheet.root.getD defaultRoot,
      sheet.symbols.getD [])) <$> firstOf sheet.faults := by
  have hrecords := forM_eq_firstOf Symbol.check_eq (sheet.symbols.getD [])
  simp only [checked, checkedNamespace_eq_map, checkedSymbols_eq_map, checkedRoot_eq_map, faults,
    firstOf_append, map_eq_pure_bind, bind_assoc, pure_bind, hrecords]

/-- A stylesheet is rejected for its first fault, and without faults it has metadata. -/
theorem normalize_eq_map (policy : DuplicatePolicy) :
    sheet.normalize policy
      = (firstOf sheet.faults).map fun _ => .ofSymbols policy (sheet.nameSpace.getD "")
          (sheet.root.getD defaultRoot) (sheet.symbols.getD []) := by
  rw [normalize_eq, checked_eq_map, Functor.map_map]
  rfl

variable {sheet} {policy : DuplicatePolicy}

theorem normalize_eq_error_iff {e : MetadataError} :
    sheet.normalize policy = .error e ↔ sheet.faults.head? = some e := by
  rw [normalize_eq_map, map_eq_error_iff, firstOf_eq_error_iff]

theorem normalize_eq_ok_iff {m : Metadata} :
    sheet.normalize policy = .ok m ↔
      sheet.faults = [] ∧ .ofSymbols policy (sheet.nameSpace.getD "") (sheet.root.getD defaultRoot)
        (sheet.symbols.getD []) = m := by
  rw [normalize_eq_map, map_eq_ok_iff]
  constructor
  · rintro ⟨⟨⟩, h, hm⟩
    exact ⟨firstOf_eq_ok_iff.mp h, hm⟩
  · rintro ⟨h, hm⟩
    exact ⟨(), firstOf_eq_ok_iff.mpr h, hm⟩

theorem exists_normalize_eq_error_iff :
    (∃ e, sheet.normalize policy = .error e) ↔ sheet.faults ≠ [] := by
  simp only [normalize_eq_error_iff, ← Option.isSome_iff_exists, List.isSome_head?, ne_eq]

theorem nameSpaceFaults_eq_nil_iff :
    sheet.nameSpaceFaults = [] ↔ sheet.nameSpace ≠ none ∧ sheet.nameSpace ≠ some "" := by
  rw [nameSpaceFaults]
  cases sheet.nameSpace with
  | none => simp
  | some s => simp

/-- A stylesheet without faults. -/
theorem faults_eq_nil_iff :
    sheet.faults = [] ↔
      (sheet.nameSpace ≠ none ∧ sheet.nameSpace ≠ some "") ∧ sheet.symbols ≠ none ∧
        sheet.root ≠ some "" ∧
        ∀ symbol ∈ sheet.symbols.getD [], ∀ r ∈ symbol.records, r.2.Sound := by
  simp only [faults, List.append_eq_nil_iff, nameSpaceFaults_eq_nil_iff, symbolsFaults, rootFaults,
    List.flatMap_eq_nil_iff, Symbol.faults_eq_nil_iff, ite_eq_right_iff, List.cons_ne_nil,
    imp_false, ne_eq, and_assoc]

end CompiledSheet

/-! ## Metadata -/

/-- The namespace and all records are sound. -/
structure Metadata.Sound (m : Metadata) : Prop where
  nameSpace : m.nameSpace ≠ ""
  names : ∀ kind, ∀ n ∈ m.ofKind kind, n.Sound
  states : ∀ c ∈ m.classes, ∀ s ∈ c.states, s.Sound

/-- Sound declarations are merged into sound metadata. -/
theorem Metadata.sound_ofSymbols {policy : DuplicatePolicy} {nameSpace root : String}
    {symbols : List Symbol} (hnameSpace : nameSpace ≠ "") (hroot : root ≠ "")
    (h : ∀ symbol ∈ symbols, ∀ r ∈ symbol.records, r.2.Sound) :
    (ofSymbols policy nameSpace root symbols).Sound := by
  have hnamed : ∀ kind, ∀ n ∈ symbols.filterMap (Symbol.named? kind), n.Sound := by
    intro kind n hn
    obtain ⟨symbol, hsymbol, hnamed⟩ := List.mem_filterMap.mp hn
    exact h symbol hsymbol _ (Symbol.mem_records_of_named? hnamed)
  have hmerges := StyleClass.merges_mergeAll policy root (symbols.filterMap Symbol.class?)
  refine ⟨hnameSpace, fun kind n hn => ?_, fun c hc s hs => ?_⟩
  · by_cases hclass : kind = .styleClass
    · rw [hclass] at hn
      obtain ⟨c, hc, rfl⟩ := List.mem_map.mp hn
      rcases hmerges.named_mem hc with hmem | himplicit
      · rw [List.map_filterMap] at hmem
        exact hnamed .styleClass _ hmem
      · rw [himplicit]
        exact ⟨hroot, by simp⟩
    · rw [ofKind_ofSymbols hclass] at hn
      split at hn
      next => cases hn
      next => exact hnamed kind n ((Named.merges_mergeAll policy _).subset hn)
  · obtain ⟨d, hd, hsd⟩ := List.mem_flatMap.mp ((hmerges.states c hc).subset hs)
    obtain ⟨symbol, hsymbol, hdeclared⟩ := List.mem_filterMap.mp (List.mem_filter.mp hd).1
    cases symbol with
    | styleClass e =>
        obtain rfl := Option.some.inj hdeclared
        exact h _ hsymbol (.state, s) (List.mem_cons_of_mem _ (List.mem_map_of_mem hsd))
    | stVar n => cases hdeclared
    | cssVar n => cases hdeclared
    | keyframes n => cases hdeclared

/-! ## When a stylesheet is rejected -/

theorem CompiledSheet.sound_of_normalize {sheet : CompiledSheet} {policy : DuplicatePolicy}
    {m : Metadata} (h : sheet.normalize policy = .ok m) : m.Sound := by
  obtain ⟨hfaults, rfl⟩ := normalize_eq_ok_iff.mp h
  obtain ⟨⟨hmissing, hempty⟩, -, hroot, hrecords⟩ := faults_eq_nil_iff.mp hfaults
  refine Metadata.sound_ofSymbols ?_ ?_ hrecords
  · cases hnameSpace : sheet.nameSpace with
    | none => exact absurd hnameSpace hmissing
    | some s => exact fun hs => hempty (hnameSpace.trans (congrArg some hs))
  · cases hname : sheet.root with
    | none => decide
    | some s => exact fun hs => hroot (hname.trans (congrArg some hs))

/-- The first class is the root class. -/
theorem CompiledSheet.head?_classes_of_normalize {sheet : CompiledSheet} {policy : DuplicatePolicy}
    {m : Metadata} (h : sheet.normalize policy = .ok m) :
    m.classes.head?.map (·.name) = some (sheet.root.getD defaultRoot) := by
  obtain ⟨-, rfl⟩ := normalize_eq_ok_iff.mp h
  have hmerges := StyleClass.merges_mergeAll policy (sheet.root.getD defaultRoot)
    ((sheet.symbols.getD []).filterMap Symbol.class?)
  rw [← List.head?_map]
  exact congrArg List.head? hmerges.names

/-- **When a stylesheet is rejected.**  Under either policy a stylesheet is rejected for the first
of its faults.  It is rejected exactly if its namespace is missing or empty, its declarations are
missing, the name of its root class is empty, or a record in them has no name or a position without
a line.  Otherwise its metadata are sound, and the root class is the first. -/
theorem CompiledSheet.normalize_fails_iff (sheet : CompiledSheet) (policy : DuplicatePolicy) :
    (∀ e, sheet.normalize policy = .error e ↔ sheet.faults.head? = some e) ∧
      ((∃ e, sheet.normalize policy = .error e) ↔
        sheet.nameSpace = none ∨ sheet.nameSpace = some "" ∨ sheet.symbols = none ∨
          sheet.root = some "" ∨
          ∃ symbol ∈ sheet.symbols.getD [], ∃ r ∈ symbol.records,
            r.2.name = "" ∨ ∃ place, r.2.position = some place ∧ place.line = 0) ∧
      ∀ m, sheet.normalize policy = .ok m →
        m.Sound ∧ m.classes.head?.map (·.name) = some (sheet.root.getD "root") := by
  refine ⟨fun e => normalize_eq_error_iff, ?_,
    fun m hm => ⟨sound_of_normalize hm, head?_classes_of_normalize hm⟩⟩
  rw [exists_normalize_eq_error_iff, ne_eq, faults_eq_nil_iff]
  simp only [← Named.not_sound_iff, not_and_or, not_not, ne_eq, or_assoc, not_forall, exists_prop]

/-- A class that is declared again with two states at fault, and a variable without a name. -/
def faultySheet : CompiledSheet where
  nameSpace := some "n"
  root := none
  symbols := some [.styleClass ⟨"a", some ⟨1, 0⟩, []⟩,
    .styleClass ⟨"a", none, [⟨"x", some ⟨0, 7⟩⟩, ⟨"", some ⟨0, 0⟩⟩]⟩, .stVar ⟨"", none⟩]

/-- The class alone, with a state that has no position. -/
def soundSheet : CompiledSheet :=
  { faultySheet with symbols := some [.styleClass ⟨"a", some ⟨1, 0⟩, [⟨"x", none⟩]⟩] }

theorem CompiledSheet.normalize_fails_iff_faulty :
    faultySheet.normalize .firstWins = .error (.lineZero .state "x") ∧
      faultySheet.faults
        = [.lineZero .state "x", .emptyName .state, .lineZero .state "", .emptyName .stVar] ∧
      ∃ m, soundSheet.normalize .lastWins = .ok m ∧ m.Sound ∧
        m.classes.head?.map (·.name) = some "root" := by
  refine ⟨((normalize_fails_iff faultySheet .firstWins).1 _).mpr (by decide), by decide, ?_⟩
  obtain ⟨m, hm⟩ : ∃ m, soundSheet.normalize .lastWins = .ok m :=
    ⟨⟨"n", [⟨"root", some ⟨1, 0⟩, []⟩, ⟨"a", some ⟨1, 0⟩, [⟨"x", none⟩]⟩], [], [], []⟩,
      toOption_eq_some_iff.mp (by decide +kernel)⟩
  exact ⟨m, hm, (normalize_fails_iff soundSheet .lastWins).2.2 m hm⟩

end TypedStyles
