import TypedStyles.Proofs.Declaration.Resolution

/-!
# The text of a declaration tells its names

Two declarations have the same text if and only if the stylesheets export the
same names in the same order, positions left out (`Metadata.emit_text_eq_iff`).

Every part of a declaration is self-delimiting.  A key ends at its quote
whatever its name is, a list of keys ends at a brace where a key would begin
with a space, and an empty group has its brace where another has a line feed.
-/

namespace TypedStyles

/-! ## Names without positions -/

/-- A name, its position left out. -/
def Named.unplaced (n : Named) : Named := { n with position := none }

/-- A class and its states, their positions left out. -/
def StyleClass.unplaced (c : StyleClass) : StyleClass where
  name := c.name
  position := none
  states := c.states.map Named.unplaced

/-- The names that a stylesheet exports, their positions left out. -/
def Metadata.unplaced (m : Metadata) : Metadata where
  nameSpace := m.nameSpace
  classes := m.classes.map StyleClass.unplaced
  stVars := m.stVars.map Named.unplaced
  cssVars := m.cssVars.map Named.unplaced
  keyframes := m.keyframes.map Named.unplaced

/-! ## The text of the parts -/

namespace Piece

/-- The line with the key of a name. -/
def keyText (indent rest : String) (n : Named) : List Char :=
  indent.toList ++ ['"'] ++ ((Key.escapeAll n.name).toList ++ ['"'] ++ rest.toList)

theorem flatMap_text_keys (indent : String) (kind : SymbolKind) (owner : Option String)
    (ns : List Named) (rest : String) :
    (keys indent kind owner ns rest).flatMap text = ns.flatMap (keyText indent rest) := by
  rw [keys, List.flatMap_map]
  rfl

/-- What closes a group. -/
def closeGroup : List Char := ['\x7d', ';', '\n']

theorem flatMap_text_object (title : String) (inside : List Piece) :
    (object title inside).flatMap text
      = ("declare const " ++ title ++ ": \x7b").toList ++
        (['\n'] ++ (inside.flatMap text ++ closeGroup)) := by
  simp [object, text, closeGroup]

theorem flatMap_text_group (title : String) (kind : SymbolKind) (ns : List Named) :
    (group title kind ns).flatMap text
      = ("declare const " ++ title ++ ": \x7b").toList ++
        (if ns = [] then closeGroup
          else ['\n'] ++ (ns.flatMap (keyText indent ": string;\n") ++ closeGroup)) := by
  rw [group]
  split
  next => simp [text, closeGroup]
  next => rw [flatMap_text_object, flatMap_text_keys]

/-- What closes the states of a class. -/
def closeStates : List Char := ['\x7d', '>', ';', '\n']

theorem flatMap_text_styleClass (c : StyleClass) :
    (styleClass c).flatMap text
      = keyText indent ": StylableClass<\x7b" c.named ++
        (if c.states = [] then closeStates
          else ['\n'] ++ (c.states.flatMap (keyText (indent ++ indent) "?: boolean;\n") ++
            (indent.toList ++ closeStates))) := by
  rw [styleClass]
  split
  next => simp [text, keyText, closeStates]
  next =>
    rw [List.cons_append, List.flatMap_cons, List.flatMap_append, flatMap_text_keys]
    simp [text, keyText, closeStates]

theorem flatMap_text_classes (cs : List StyleClass) :
    (classes cs).flatMap text
      = "declare const classes: \x7b".toList ++
        (if cs = [] then closeGroup
          else ['\n'] ++ (cs.flatMap (fun c => (styleClass c).flatMap text) ++ closeGroup)) := by
  rw [classes]
  split
  next => simp [text, closeGroup]
  next =>
    rw [flatMap_text_object, List.flatMap_assoc]
    rfl

/-! ## Every part tells its names -/

/-- A line with a key tells the name of the key. -/
theorem selfDelimiting_keyText (indent rest : String) :
    SelfDelimiting (keyText indent rest) Named.unplaced := by
  have hname := (Key.selfDelimiting_escapeAll.append rest.toList).prepend (indent.toList ++ ['"'])
  exact (hname.comap Named.name).map fun name => (⟨name, none⟩ : Named)

theorem clash_closeGroup_keyText (rest : String) (n : Named) :
    Clash closeGroup (keyText indent rest n) := Clash.of_ne (by decide) _ _

theorem clash_closeGroup_lineFeed : Clash closeGroup ['\n'] := Clash.of_ne (by decide) _ _

theorem selfDelimiting_group (title : String) (kind : SymbolKind) :
    SelfDelimiting (fun ns => (group title kind ns).flatMap text) (List.map Named.unplaced) := by
  have hkeys := (selfDelimiting_keyText indent ": string;\n").closedList
    (clash_closeGroup_keyText ": string;\n")
  simp only [flatMap_text_group]
  exact (hkeys.listOrEmpty clash_closeGroup_lineFeed).prepend _

theorem selfDelimiting_styleClass :
    SelfDelimiting (fun c => (styleClass c).flatMap text) StyleClass.unplaced := by
  have hstate : ∀ s, Clash (indent.toList ++ closeStates)
      (keyText (indent ++ indent) "?: boolean;\n" s) := by
    intro s
    -- Both begin with the indent of a class, behind which a state has a space.
    have hclash : Clash (indent.toList ++ closeStates) (indent.toList ++ indent.toList) :=
      (Clash.of_ne (by decide) _ _).append_left _
    rw [keyText, String.toList_append, List.append_assoc]
    exact hclash.append_right _
  have hkeys := (selfDelimiting_keyText (indent ++ indent) "?: boolean;\n").closedList hstate
  have hempty : Clash closeStates ['\n'] := Clash.of_ne (by decide) _ _
  have hstates := hkeys.listOrEmpty hempty
  have hclass := ((selfDelimiting_keyText indent ": StylableClass<\x7b").comap StyleClass.named).seq
    (hstates.comap StyleClass.states)
  simp only [flatMap_text_styleClass]
  exact hclass.map fun names => (⟨names.1.name, none, names.2⟩ : StyleClass)

theorem selfDelimiting_classes :
    SelfDelimiting (fun cs => (classes cs).flatMap text) (List.map StyleClass.unplaced) := by
  have hclass : ∀ c, Clash closeGroup ((styleClass c).flatMap text) := by
    intro c
    rw [flatMap_text_styleClass]
    exact (clash_closeGroup_keyText ": StylableClass<\x7b" c.named).append_right _
  have hclasses := selfDelimiting_styleClass.closedList hclass
  simp only [flatMap_text_classes]
  exact (hclasses.listOrEmpty clash_closeGroup_lineFeed).prepend _

theorem selfDelimiting_opening :
    SelfDelimiting (fun nameSpace => (opening nameSpace).text) (fun nameSpace => nameSpace) := by
  have htext : ∀ nameSpace, (opening nameSpace).text
      = (declarationHeader ++ classType ++ "\n" ++ "declare const namespace: \"").toList ++
        ((Key.escapeAll nameSpace).toList ++ ['"'] ++ [';', '\n']) := by
    intro nameSpace
    simp [opening, text]
  simp only [htext]
  exact (Key.selfDelimiting_escapeAll.append _).prepend _

end Piece

namespace Metadata

/-- A declaration tells the names that the stylesheet exports. -/
theorem selfDelimiting_pieces :
    SelfDelimiting (fun m => m.pieces.flatMap Piece.text) unplaced := by
  have hparts := (Piece.selfDelimiting_opening.comap nameSpace).seq
    ((Piece.selfDelimiting_classes.comap classes).seq
      (((Piece.selfDelimiting_group "stVars" .stVar).comap stVars).seq
        (((Piece.selfDelimiting_group "vars" .cssVar).comap cssVars).seq
          (((Piece.selfDelimiting_group "keyframes" .keyframes).comap keyframes).append
            runtimeDeclarations.toList))))
  have htext : ∀ m : Metadata, m.pieces.flatMap Piece.text
      = (Piece.opening m.nameSpace).text ++ ((Piece.classes m.classes).flatMap Piece.text ++
        ((Piece.group "stVars" .stVar m.stVars).flatMap Piece.text ++
          ((Piece.group "vars" .cssVar m.cssVars).flatMap Piece.text ++
            ((Piece.group "keyframes" .keyframes m.keyframes).flatMap Piece.text ++
              runtimeDeclarations.toList)))) := by
    intro m
    simp only [pieces, List.flatMap_cons, List.flatMap_append, List.flatMap_nil, List.append_assoc,
      List.append_nil]
    rfl
  simp only [htext]
  exact hparts.map fun names =>
    (⟨names.1, names.2.1, names.2.2.1, names.2.2.2.1, names.2.2.2.2⟩ : Metadata)

end Metadata

/-! ## Positions leave no trace -/

namespace Piece

/-- A piece, the position of its name left out. -/
def unplaced : Piece → Piece
  | plain s => plain s
  | key indent e rest => key indent ⟨e.kind, e.owner, e.named.unplaced⟩ rest

theorem text_unplaced (b : Piece) : b.unplaced.text = b.text := by
  cases b with
  | plain s => rfl
  | key indent e rest => rfl

theorem keys_unplaced (indent : String) (kind : SymbolKind) (owner : Option String)
    (ns : List Named) (rest : String) :
    keys indent kind owner (ns.map Named.unplaced) rest
      = (keys indent kind owner ns rest).map unplaced := by
  rw [keys, keys, List.map_map, List.map_map]
  rfl

theorem object_unplaced (title : String) (inside : List Piece) :
    object title (inside.map unplaced) = (object title inside).map unplaced := by
  rw [object, object, List.map_append, List.map_cons]
  rfl

theorem group_unplaced (title : String) (kind : SymbolKind) (ns : List Named) :
    group title kind (ns.map Named.unplaced) = (group title kind ns).map unplaced := by
  simp only [group, List.map_eq_nil_iff]
  split
  next => rfl
  next => rw [keys_unplaced, object_unplaced]

theorem styleClass_unplaced (c : StyleClass) :
    styleClass c.unplaced = (styleClass c).map unplaced := by
  simp only [styleClass, StyleClass.unplaced, List.map_eq_nil_iff]
  split
  next => rfl
  next =>
    rw [keys_unplaced, List.map_append, List.map_cons]
    rfl

theorem classes_unplaced (cs : List StyleClass) :
    classes (cs.map StyleClass.unplaced) = (classes cs).map unplaced := by
  simp only [classes, List.map_eq_nil_iff]
  split
  next => rfl
  next =>
    rw [← object_unplaced, List.flatMap_map, List.map_flatMap]
    simp only [styleClass_unplaced]

end Piece

/-- Without positions a declaration has the same pieces, their positions left out. -/
theorem Metadata.pieces_unplaced (m : Metadata) :
    m.unplaced.pieces = m.pieces.map Piece.unplaced := by
  simp only [pieces, unplaced, Piece.classes_unplaced, Piece.group_unplaced, List.map_cons,
    List.map_append]
  rfl

theorem Metadata.flatMap_text_pieces_unplaced (m : Metadata) :
    m.unplaced.pieces.flatMap Piece.text = m.pieces.flatMap Piece.text := by
  rw [pieces_unplaced, List.flatMap_map]
  simp only [Piece.text_unplaced]

/-- **The text tells the names.**  Two declarations have the same text if and only if their
stylesheets export the same names in the same order.  Nothing else has a part in the text:
neither the positions of the names, nor the source file, nor what the recording holds.  So the
declaration alone is the same text as the declaration with a source map. -/
theorem Metadata.emit_text_eq_iff (m₁ m₂ : Metadata) (source₁ source₂ : String)
    (recording₁ recording₂ : Recording) :
    ((m₁.emit source₁ recording₁).text = (m₂.emit source₂ recording₂).text ↔
        m₁.unplaced = m₂.unplaced) ∧
      ∀ (o : Options) (out : Output), m₁.generate o = .ok out →
        m₁.declarationText = out.declaration := by
  have htext : ∀ (m : Metadata) (source : String) (recording : Recording),
      (m.emit source recording).text = String.ofList (m.pieces.flatMap Piece.text) := by
    intro m source recording
    rw [← toList_emit_text m source recording, String.ofList_toList]
  refine ⟨⟨fun h => ?_, fun h => ?_⟩, fun o out hout => ?_⟩
  · have hpieces := congrArg String.toList h
    rw [toList_emit_text, toList_emit_text] at hpieces
    have hends : m₁.pieces.flatMap Piece.text ++ [] = m₂.pieces.flatMap Piece.text ++ [] := by
      rw [hpieces]
    exact (selfDelimiting_pieces hends).1
  · rw [htext, htext, ← flatMap_text_pieces_unplaced, h, flatMap_text_pieces_unplaced]
  · rw [declaration_generate hout, declarationText, htext, htext]

/-- Two classes without states. -/
def twoClassesMetadata : Metadata where
  nameSpace := "n"
  classes := [⟨"a", some ⟨1, 0⟩, []⟩, ⟨"b", some ⟨2, 0⟩, []⟩]
  stVars := []
  cssVars := []
  keyframes := []

/-- One class, whose name imitates the text between the names of two. -/
def imitatingMetadata : Metadata where
  nameSpace := "n"
  classes := [⟨"a\": StylableClass<\x7b\x7d>;\n    \"b", some ⟨1, 0⟩, []⟩]
  stVars := []
  cssVars := []
  keyframes := []

theorem Metadata.emit_text_eq_iff_imitation :
    (imitatingMetadata.emit "a.css" .empty).text ≠ (twoClassesMetadata.emit "a.css" .empty).text ∧
      (twoClassesMetadata.unplaced.emit "b.css" (.add .empty ⟨1, 1⟩ "c.css" ⟨2, 2⟩)).text
        = (twoClassesMetadata.emit "a.css" .empty).text ∧
      ∃ out, twoClassesMetadata.generate ⟨"a.css", .firstWins, .none⟩ = .ok out ∧
        twoClassesMetadata.declarationText = out.declaration := by
  have hmappings : twoClassesMetadata.mappings "a.css"
      = [mappingAt 6 5 1 0 "a.css", mappingAt 7 5 2 0 "a.css"] := by decide +kernel
  obtain ⟨out, hout⟩ :
      ∃ out, twoClassesMetadata.generate ⟨"a.css", .firstWins, .none⟩ = .ok out :=
    Metadata.exists_generate hmappings (by decide) (by decide +kernel)
  have himitating := (Metadata.emit_text_eq_iff imitatingMetadata twoClassesMetadata "a.css" "a.css"
    .empty .empty).1
  have hunplaced := (Metadata.emit_text_eq_iff twoClassesMetadata.unplaced twoClassesMetadata
    "b.css" "a.css" (.add .empty ⟨1, 1⟩ "c.css" ⟨2, 2⟩) .empty).1
  have hgenerated := (Metadata.emit_text_eq_iff twoClassesMetadata twoClassesMetadata
    "a.css" "a.css" .empty .empty).2
  exact ⟨fun h => absurd (himitating.mp h) (by decide), hunplaced.mpr (by decide), out, hout,
    hgenerated _ out hout⟩

end TypedStyles
