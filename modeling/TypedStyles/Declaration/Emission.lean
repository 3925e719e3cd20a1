import TypedStyles.Declaration.Writer

/-!
# Declarations

`Metadata.emit` writes the declaration of a stylesheet.  It begins with a
header and the type of a class.  After the namespace come four groups in a
fixed order: classes, stylesheet variables, custom properties and keyframes.
A group without names is an empty object.  The states of a class stand in an
object inside the class.  The declaration ends with the lookup function and the
list of exports.

The text depends on the names alone.  Positions go to the anchors and to the
recording.
-/

namespace TypedStyles

/-! ## Fixed texts -/

/-- The first line of every declaration. -/
def declarationHeader : String := "/* THIS FILE IS AUTO GENERATED DO NOT MODIFY */\n"

/-- The type of a class: a string that carries the type of its states. -/
def classType : String :=
  "type StylableClass<States> = string & \x7b readonly __states?: States \x7d;\n"

/-- What every declaration ends with. -/
def runtimeDeclarations : String :=
  "declare const st: (className: keyof typeof classes, states?: Record<string, boolean>, " ++
  "...extra: string[]) => string;\n\n" ++
  "export \x7b namespace, classes, stVars, vars, keyframes, st \x7d;\n"

/-- One step of indentation. -/
def indent : String := "    "

/-! ## Parts of a declaration -/

namespace Writer

/-- Write a class and its states. -/
def styleClass (source : String) (w : Writer) (c : StyleClass) : Writer :=
  if c.states = [] then
    w.key source indent .styleClass none c.named ": StylableClass<\x7b\x7d>;\n"
  else
    let opened := w.key source indent .styleClass none c.named ": StylableClass<\x7b\n"
    let filled := c.states.foldl
      (fun w s => w.key source (indent ++ indent) .state (some c.name) s "?: boolean;\n") opened
    (filled.push indent).push "\x7d>;\n"

/-- Write the group of classes. -/
def classes (source : String) (cs : List StyleClass) (w : Writer) : Writer :=
  if cs = [] then w.push "declare const classes: \x7b\x7d;\n"
  else (cs.foldl (styleClass source) (w.push "declare const classes: \x7b\n")).push "\x7d;\n"

/-- Write the group of names that is called `title`. -/
def group (source title : String) (kind : SymbolKind) (ns : List Named) (w : Writer) : Writer :=
  if ns = [] then w.push ("declare const " ++ title ++ ": \x7b\x7d;\n")
  else
    let opened := w.push ("declare const " ++ title ++ ": \x7b\n")
    let filled := ns.foldl (fun w n => w.key source indent kind none n ": string;\n") opened
    filled.push "\x7d;\n"

/-- Write the header, the type of a class and the namespace. -/
def opening (nameSpace : String) (w : Writer) : Writer :=
  (((w.push declarationHeader).push classType).push "\n").push
    ("declare const namespace: \"" ++ Key.escapeAll nameSpace ++ "\";\n")

/-- Write a whole declaration. -/
def declaration (source : String) (m : Metadata) (w : Writer) : Writer :=
  let w := w.opening m.nameSpace
  let w := w.classes source m.classes
  let w := w.group source "stVars" .stVar m.stVars
  let w := w.group source "vars" .cssVar m.cssVars
  let w := w.group source "keyframes" .keyframes m.keyframes
  w.push runtimeDeclarations

end Writer

/-! ## Emission -/

/-- A declaration that was written. -/
structure Emission where
  text : String
  /-- The anchors of the keys, first key first. -/
  anchors : List Anchor
  /-- The recording with the mappings of the keys added. -/
  recording : Recording

/-- Write the declaration of a stylesheet.  The mappings refer to the file
`source` and are added to the recording. -/
def Metadata.emit (m : Metadata) (source : String) (recording : Recording) : Emission :=
  let w := (Writer.start recording).declaration source m
  ⟨w.text, w.anchors.toList, w.recording⟩

/-- The declaration of a stylesheet, as text alone. -/
def Metadata.declarationText (m : Metadata) : String := (m.emit "" .empty).text

/-! ## Tests -/

section Tests

/-- A stylesheet with one class, which has one state. -/
def buttonMetadata : Metadata where
  nameSpace := "button"
  classes := [⟨"root", some ⟨1, 0⟩, [⟨"on", none⟩]⟩]
  stVars := []
  cssVars := [⟨"--c", some ⟨4, 8⟩⟩]
  keyframes := []

/-- A key begins after its indentation and its quote. -/
example : (buttonMetadata.emit "a.css" .empty).anchors.map (fun a => (a.name, a.generated))
    = [("root", ⟨6, 5⟩), ("on", ⟨7, 9⟩), ("--c", ⟨12, 5⟩)] := by decide +kernel
/-- A name without a position is not mapped. -/
example : (buttonMetadata.emit "a.css" .empty).recording.toList.map
      (fun m => (m.generated, m.origin.position))
    = [(⟨6, 5⟩, ⟨1, 0⟩), (⟨12, 5⟩, ⟨4, 8⟩)] := by decide +kernel

end Tests

end TypedStyles
