import TypedStyles.Declaration.Emission
import TypedStyles.Proofs.Text.Position

/-!
# Declarations in pieces

A declaration is a list of pieces (`Metadata.pieces`).  A piece is plain text
or a line with a key, and it ends with a line feed.  The writer writes the
pieces in turn (`Writer.declaration_eq`).

What a piece does to the writer does not depend on what was written before, but
for the position.  So text, anchors and recording of an emission are read off
the pieces (`Metadata.toList_emit_text`, `Metadata.emit_anchors`,
`Metadata.toList_emit_recording`).  The anchors stand for the names of the
stylesheet in order (`Metadata.map_entry_emit_anchors`), each at its key
(`Metadata.marks_of_mem_emit_anchors`).
-/

namespace TypedStyles

/-! ## Entries -/

/-- What a key stands for. -/
structure Entry where
  kind : SymbolKind
  /-- The class that a state belongs to. -/
  owner : Option String
  named : Named
deriving DecidableEq

def StyleClass.entries (c : StyleClass) : List Entry :=
  ⟨.styleClass, none, c.named⟩ :: c.states.map fun s => ⟨.state, some c.name, s⟩

/-- All names of a stylesheet in the order in which their keys are written. -/
def Metadata.entries (m : Metadata) : List Entry :=
  m.classes.flatMap StyleClass.entries ++ m.stVars.map (⟨.stVar, none, ·⟩) ++
    m.cssVars.map (⟨.cssVar, none, ·⟩) ++ m.keyframes.map (⟨.keyframes, none, ·⟩)

namespace Anchor

/-- What the key of an anchor stands for. -/
def entry (a : Anchor) : Entry := ⟨a.kind, a.owner, ⟨a.name, a.declared⟩⟩

/-- The mapping of an anchor, if its name has a position. -/
def mapping? (source : String) (a : Anchor) : Option Mapping :=
  a.declared.map fun place => ⟨a.generated, ⟨source, place, none⟩⟩

/-- The anchor stands at its key in a text, right after the quote that opens it. -/
def Marks (text : List Char) (a : Anchor) : Prop :=
  ∃ before after, text = before ++ '"' :: ((Key.escapeAll a.name).toList ++ '"' :: after) ∧
    a.generated = Position.start.after (before ++ ['"'])

end Anchor

/-! ## Pieces -/

/-- A part of a declaration that is written at once. -/
inductive Piece where
  | plain (text : String)
  /-- An indent, the quoted key of an entry, and the rest of the line. -/
  | key (indent : String) (e : Entry) (rest : String)

namespace Piece

def text : Piece → List Char
  | plain s => s.toList
  | key indent e rest =>
      indent.toList ++ ['"'] ++ ((Key.escapeAll e.named.name).toList ++ ['"'] ++ rest.toList)

def entry? : Piece → Option Entry
  | plain _ => none
  | key _ e _ => some e

/-- The anchor of a piece that is written at a position. -/
def anchor? (p : Position) : Piece → Option Anchor
  | plain _ => none
  | key indent e _ =>
      some ⟨e.kind, e.owner, e.named.name, p.after (indent.toList ++ ['"']), e.named.position⟩

/-- The anchors of pieces that are written one after the other. -/
def anchorsFrom : (p : Position) → List Piece → List Anchor
  | _, [] => []
  | p, b :: bs => (b.anchor? p).toList ++ anchorsFrom (p.after b.text) bs
termination_by structural _ bs => bs

/-- A key for every name of a list. -/
def keys (indent : String) (kind : SymbolKind) (owner : Option String) (ns : List Named)
    (rest : String) : List Piece :=
  ns.map fun n => key indent ⟨kind, owner, n⟩ rest

/-- An object with pieces inside. -/
def object (title : String) (inside : List Piece) : List Piece :=
  plain ("declare const " ++ title ++ ": \x7b\n") :: inside ++ [plain "\x7d;\n"]

def styleClass (c : StyleClass) : List Piece :=
  if c.states = [] then [key indent ⟨.styleClass, none, c.named⟩ ": StylableClass<\x7b\x7d>;\n"]
  else
    key indent ⟨.styleClass, none, c.named⟩ ": StylableClass<\x7b\n" ::
      keys (indent ++ indent) .state (some c.name) c.states "?: boolean;\n" ++
        [plain (indent ++ "\x7d>;\n")]

def classes (cs : List StyleClass) : List Piece :=
  if cs = [] then [plain "declare const classes: \x7b\x7d;\n"]
  else object "classes" (cs.flatMap styleClass)

/-- The group of names that is called `title`. -/
def group (title : String) (kind : SymbolKind) (ns : List Named) : List Piece :=
  if ns = [] then [plain ("declare const " ++ title ++ ": \x7b\x7d;\n")]
  else object title (keys indent kind none ns ": string;\n")

/-- The header, the type of a class and the namespace. -/
def opening (nameSpace : String) : Piece :=
  plain (declarationHeader ++ classType ++ "\n" ++
    ("declare const namespace: \"" ++ Key.escapeAll nameSpace ++ "\";\n"))

end Piece

/-- The pieces of a declaration. -/
def Metadata.pieces (m : Metadata) : List Piece :=
  Piece.opening m.nameSpace :: (Piece.classes m.classes ++ Piece.group "stVars" .stVar m.stVars ++
    Piece.group "vars" .cssVar m.cssVars ++ Piece.group "keyframes" .keyframes m.keyframes ++
    [.plain runtimeDeclarations])

/-! ## Writing pieces -/

namespace Writer

theorem push_push (w : Writer) (s t : String) : (w.push s).push t = w.push (s ++ t) := by
  simp only [push, String.append_assoc, String.toList_append, Position.after_append]

def write (source : String) (w : Writer) : Piece → Writer
  | .plain s => w.push s
  | .key indent e rest => w.key source indent e.kind e.owner e.named rest

def writeAll (source : String) (w : Writer) (bs : List Piece) : Writer := bs.foldl (write source) w

variable {source : String}

theorem writeAll_cons (w : Writer) (b : Piece) (bs : List Piece) :
    w.writeAll source (b :: bs) = (w.write source b).writeAll source bs := rfl

theorem writeAll_append (w : Writer) (bs cs : List Piece) :
    w.writeAll source (bs ++ cs) = (w.writeAll source bs).writeAll source cs :=
  List.foldl_append

theorem writeAll_keys (w : Writer) (indent : String) (kind : SymbolKind) (owner : Option String)
    (ns : List Named) (rest : String) :
    w.writeAll source (Piece.keys indent kind owner ns rest)
      = ns.foldl (fun w n => w.key source indent kind owner n rest) w :=
  List.foldl_map

theorem styleClass_eq (w : Writer) (c : StyleClass) :
    w.styleClass source c = w.writeAll source (Piece.styleClass c) := by
  rw [styleClass, Piece.styleClass]
  split
  next => rfl
  next =>
    rw [List.cons_append, writeAll_cons, writeAll_append, writeAll_keys, push_push]
    rfl

theorem classes_eq (w : Writer) (cs : List StyleClass) :
    w.classes source cs = w.writeAll source (Piece.classes cs) := by
  rw [classes, Piece.classes]
  split
  next => rfl
  next =>
    have hinside : ∀ (cs : List StyleClass) (w : Writer), cs.foldl (styleClass source) w
        = w.writeAll source (cs.flatMap Piece.styleClass) := by
      intro cs
      induction cs with
      | nil => exact fun w => rfl
      | cons c cs ih =>
          intro w
          rw [List.foldl_cons, ih, styleClass_eq, List.flatMap_cons, writeAll_append]
    rw [hinside, Piece.object, List.cons_append, writeAll_cons, writeAll_append]
    rfl

theorem group_eq (title : String) (kind : SymbolKind) (ns : List Named) (w : Writer) :
    w.group source title kind ns = w.writeAll source (Piece.group title kind ns) := by
  rw [group, Piece.group]
  split
  next => rfl
  next =>
    rw [Piece.object, List.cons_append, writeAll_cons, writeAll_append, writeAll_keys]
    rfl

/-- A declaration is written piece by piece. -/
theorem declaration_eq (m : Metadata) (w : Writer) :
    w.declaration source m = w.writeAll source m.pieces := by
  have hopening : w.opening m.nameSpace = w.write source (Piece.opening m.nameSpace) := by
    rw [opening, push_push, push_push, push_push]
    rfl
  simp only [declaration, Metadata.pieces, writeAll_cons, writeAll_append, hopening, classes_eq,
    group_eq]
  rfl

/-! ## What pieces do to the writer -/

theorem toList_text_write (w : Writer) (b : Piece) :
    (w.write source b).text.toList = w.text.toList ++ b.text := by
  cases b with
  | plain s => exact String.toList_append
  | key indent e rest => simp [write, key, push, Piece.text]

theorem position_write (w : Writer) (b : Piece) :
    (w.write source b).position = w.position.after b.text := by
  cases b with
  | plain s => rfl
  | key indent e rest =>
      have hquote : "\"".toList = ['"'] := rfl
      simp only [write, key, push, Piece.text, Position.after_append, hquote]

theorem anchors_write (w : Writer) (b : Piece) :
    (w.write source b).anchors.toList = w.anchors.toList ++ (b.anchor? w.position).toList := by
  cases b with
  | plain s => exact (List.append_nil _).symm
  | key indent e rest => simp [write, key, push, Piece.anchor?, Position.after_append]

theorem recording_write (w : Writer) (b : Piece) :
    (w.write source b).recording.toList = w.recording.toList ++
      (b.anchor? w.position).toList.filterMap (Anchor.mapping? source) := by
  cases b with
  | plain s => exact (List.append_nil _).symm
  | key indent e rest =>
      cases hplace : e.named.position with
      | none => simp [write, key, push, Piece.anchor?, Anchor.mapping?, hplace]
      | some place =>
          simp [write, key, push, Piece.anchor?, Anchor.mapping?, hplace, Position.after_append]

theorem toList_text_writeAll (w : Writer) (bs : List Piece) :
    (w.writeAll source bs).text.toList = w.text.toList ++ bs.flatMap Piece.text := by
  induction bs generalizing w with
  | nil => exact (List.append_nil _).symm
  | cons b bs ih =>
      rw [writeAll_cons, ih, toList_text_write, List.flatMap_cons, List.append_assoc]

theorem anchors_writeAll (w : Writer) (bs : List Piece) :
    (w.writeAll source bs).anchors.toList
      = w.anchors.toList ++ Piece.anchorsFrom w.position bs := by
  induction bs generalizing w with
  | nil => exact (List.append_nil _).symm
  | cons b bs ih =>
      rw [writeAll_cons, ih, anchors_write, position_write, Piece.anchorsFrom, List.append_assoc]

theorem recording_writeAll (w : Writer) (bs : List Piece) :
    (w.writeAll source bs).recording.toList = w.recording.toList ++
      (Piece.anchorsFrom w.position bs).filterMap (Anchor.mapping? source) := by
  induction bs generalizing w with
  | nil => exact (List.append_nil _).symm
  | cons b bs ih =>
      rw [writeAll_cons, ih, recording_write, position_write, Piece.anchorsFrom,
        List.filterMap_append, List.append_assoc]

end Writer

/-! ## Emission -/

namespace Metadata

theorem toList_emit_text (m : Metadata) (source : String) (recording : Recording) :
    (m.emit source recording).text.toList = m.pieces.flatMap Piece.text := by
  have hstart : (Writer.start recording).text.toList = [] := rfl
  rw [emit, Writer.declaration_eq, Writer.toList_text_writeAll, hstart, List.nil_append]

theorem emit_anchors (m : Metadata) (source : String) (recording : Recording) :
    (m.emit source recording).anchors = Piece.anchorsFrom .start m.pieces := by
  have hanchors : (Writer.start recording).anchors.toList = [] := rfl
  have hposition : (Writer.start recording).position = .start := rfl
  rw [emit, Writer.declaration_eq, Writer.anchors_writeAll, hanchors, hposition, List.nil_append]

/-- The anchors do not depend on where the mappings lead or on where they go. -/
theorem emit_anchors_eq_emit_anchors (m : Metadata) (source other : String)
    (recording before : Recording) :
    (m.emit source recording).anchors = (m.emit other before).anchors := by
  rw [emit_anchors, emit_anchors]

theorem emit_text_eq_emit_text (m : Metadata) (source other : String)
    (recording before : Recording) :
    (m.emit source recording).text = (m.emit other before).text := by
  apply String.toList_injective
  rw [toList_emit_text, toList_emit_text]

/-- The mappings of the anchors are added to the recording. -/
theorem toList_emit_recording (m : Metadata) (source : String) (recording : Recording) :
    (m.emit source recording).recording.toList = recording.toList ++
      (m.emit source recording).anchors.filterMap (Anchor.mapping? source) := by
  have hposition : (Writer.start recording).position = .start := rfl
  have hrecording : (Writer.start recording).recording = recording := rfl
  rw [emit_anchors, emit, Writer.declaration_eq, Writer.recording_writeAll, hposition, hrecording]

end Metadata

/-! ## Every name has its key -/

namespace Piece

theorem map_entry_anchorsFrom (p : Position) (bs : List Piece) :
    (anchorsFrom p bs).map Anchor.entry = bs.filterMap entry? := by
  induction bs generalizing p with
  | nil => rfl
  | cons b bs ih =>
      cases b with
      | plain s => exact ih _
      | key indent e rest =>
          rw [anchorsFrom, List.map_append, ih]
          rfl

theorem filterMap_entry?_keys (indent : String) (kind : SymbolKind) (owner : Option String)
    (ns : List Named) (rest : String) :
    (keys indent kind owner ns rest).filterMap entry? = ns.map (⟨kind, owner, ·⟩) := by
  rw [keys, List.filterMap_map, ← List.filterMap_eq_map]
  rfl

theorem filterMap_entry?_object (title : String) (inside : List Piece) :
    (object title inside).filterMap entry? = inside.filterMap entry? := by
  rw [object, List.cons_append, List.filterMap_cons_none rfl, List.filterMap_append]
  exact List.append_nil _

theorem filterMap_entry?_styleClass (c : StyleClass) :
    (styleClass c).filterMap entry? = c.entries := by
  rw [styleClass, StyleClass.entries]
  split
  next h =>
    rw [h]
    rfl
  next =>
    rw [List.cons_append, List.filterMap_cons, List.filterMap_append, filterMap_entry?_keys]
    exact congrArg _ (List.append_nil _)

theorem filterMap_entry?_classes (cs : List StyleClass) :
    (classes cs).filterMap entry? = cs.flatMap StyleClass.entries := by
  rw [classes]
  split
  next h =>
    rw [h]
    rfl
  next =>
    rw [filterMap_entry?_object, List.filterMap_flatMap]
    simp only [filterMap_entry?_styleClass]

theorem filterMap_entry?_group (title : String) (kind : SymbolKind) (ns : List Named) :
    (group title kind ns).filterMap entry? = ns.map (⟨kind, none, ·⟩) := by
  rw [group]
  split
  next h =>
    rw [h]
    rfl
  next => rw [filterMap_entry?_object, filterMap_entry?_keys]

end Piece

/-- The anchors stand for the names of the stylesheet, one for each. -/
theorem Metadata.map_entry_emit_anchors (m : Metadata) (source : String)
    (recording : Recording) :
    (m.emit source recording).anchors.map Anchor.entry = m.entries := by
  rw [emit_anchors, Piece.map_entry_anchorsFrom, pieces, List.filterMap_cons_none rfl]
  simp only [List.filterMap_append, Piece.filterMap_entry?_classes,
    Piece.filterMap_entry?_group]
  exact List.append_nil _

/-! ## Every anchor stands at its key -/

theorem Piece.anchorsFrom_cons_of_none {p : Position} {b : Piece} {bs : List Piece}
    (h : b.anchor? p = none) : anchorsFrom p (b :: bs) = anchorsFrom (p.after b.text) bs := by
  rw [anchorsFrom, h]
  rfl

/-- An anchor belongs to a piece, and it depends on the pieces before. -/
theorem Piece.exists_split_of_mem_anchorsFrom {p : Position} {bs : List Piece} {a : Anchor}
    (h : a ∈ anchorsFrom p bs) :
    ∃ before b after, bs = before ++ b :: after ∧
      b.anchor? (p.after (before.flatMap text)) = some a := by
  induction bs generalizing p with
  | nil => cases h
  | cons b bs ih =>
      rcases List.mem_append.mp h with hhere | hlater
      · exact ⟨[], b, bs, rfl, Option.mem_toList.mp hhere⟩
      · obtain ⟨before, c, after, rfl, hc⟩ := ih hlater
        refine ⟨b :: before, c, after, rfl, ?_⟩
        rw [List.flatMap_cons, Position.after_append]
        exact hc

theorem Piece.eq_key_of_anchor? {p : Position} {b : Piece} {a : Anchor}
    (h : b.anchor? p = some a) :
    ∃ indent rest, b = key indent a.entry rest ∧
      a.generated = p.after (indent.toList ++ ['"']) := by
  cases b with
  | plain s => cases h
  | key indent e rest =>
      obtain rfl := Option.some.inj h
      exact ⟨indent, rest, rfl, rfl⟩

theorem Piece.exists_key_of_mem_anchorsFrom {p : Position} {bs : List Piece} {a : Anchor}
    (h : a ∈ anchorsFrom p bs) :
    ∃ before after,
      bs.flatMap text = before ++ '"' :: ((Key.escapeAll a.name).toList ++ '"' :: after) ∧
        a.generated = p.after (before ++ ['"']) := by
  obtain ⟨before, b, after, rfl, hb⟩ := exists_split_of_mem_anchorsFrom h
  obtain ⟨indent, rest, rfl, hgenerated⟩ := eq_key_of_anchor? hb
  refine ⟨before.flatMap text ++ indent.toList, rest.toList ++ after.flatMap text, ?_, ?_⟩
  · simp [text, Anchor.entry]
  · rw [hgenerated, List.append_assoc, ← Position.after_append]

theorem Metadata.marks_of_mem_emit_anchors {m : Metadata} {source : String}
    {recording : Recording} {a : Anchor} (h : a ∈ (m.emit source recording).anchors) :
    a.Marks (m.emit source recording).text.toList := by
  rw [emit_anchors] at h
  rw [Anchor.Marks, toList_emit_text]
  exact Piece.exists_key_of_mem_anchorsFrom h

end TypedStyles
