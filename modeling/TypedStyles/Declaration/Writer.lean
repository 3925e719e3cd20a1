import TypedStyles.Declaration.Key
import TypedStyles.SourceMap.Mapping
import TypedStyles.Stylesheet.Symbol

/-!
# Writing a declaration

A `Writer` holds the text written so far, the position after it, the anchors of
the keys in it, and the recording that takes their mappings.  `push` writes a
piece of text and `key` writes a line with a key.

The anchor of a key is the position of its first character, right after the
opening quote.  Every key has an anchor.  A key is mapped if its name has a
position in the stylesheet.

`text_push` and `position_push` say what a piece of text does to the writer.
-/

namespace TypedStyles

/-- Where the key of a name stands in a declaration. -/
structure Anchor where
  /-- What the name stands for. -/
  kind : SymbolKind
  /-- The class that a state belongs to. -/
  owner : Option String
  /-- The name, as the stylesheet has it. -/
  name : String
  /-- The position of the first character of the key. -/
  generated : Position
  /-- The position of the name in the stylesheet, if it is known. -/
  declared : Option Position
deriving DecidableEq

/-- A declaration that is being written. -/
structure Writer where
  text : String
  /-- The position after the text. -/
  position : Position
  /-- The anchors of the keys, first key first. -/
  anchors : Array Anchor
  /-- The mappings of the keys, after those that were there before. -/
  recording : Recording

namespace Writer

/-- A writer that has written nothing. -/
def start (recording : Recording) : Writer := ⟨"", .start, #[], recording⟩

/-- Write a piece of text. -/
def push (w : Writer) (s : String) : Writer :=
  { w with text := w.text ++ s, position := w.position.after s.toList }

/-- Write a line with the key of a name: the indent, the quoted key, and the
rest of the line. -/
def key (source : String) (indent : String) (kind : SymbolKind) (owner : Option String)
    (n : Named) (rest : String) (w : Writer) : Writer :=
  let opened := (w.push indent).push "\""
  let closed := ((opened.push (Key.escapeAll n.name)).push "\"").push rest
  { closed with
    anchors := closed.anchors.push ⟨kind, owner, n.name, opened.position, n.position⟩
    recording :=
      match n.position with
      | some place => closed.recording.add opened.position source place
      | none => closed.recording }

@[simp] theorem text_push (w : Writer) (s : String) : (w.push s).text = w.text ++ s := rfl

@[simp] theorem position_push (w : Writer) (s : String) :
    (w.push s).position = w.position.after s.toList := rfl

end Writer

end TypedStyles
