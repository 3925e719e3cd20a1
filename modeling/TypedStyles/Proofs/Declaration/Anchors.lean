import TypedStyles.Proofs.Declaration.Lines
import TypedStyles.Proofs.Text.Utf16

/-!
# Where the anchors stand

The line of an anchor is a key line: spaces, a quote, the escaped name, a quote,
and text that tells the kind of the name.  The anchor stands right behind the
first quote (`Metadata.emit_anchors_at_keys`), whatever the names are.

The position of an anchor is known once the pieces before its piece are: they
end their lines, so its line is a matter of counting line feeds and its column
depends on the indent alone (`Metadata.line_of_mem_emit_anchors`).
-/

namespace TypedStyles

/-! ## Lines with a key -/

/-- What stands behind a key and tells the kind of its name. -/
def SymbolKind.annotation : SymbolKind → List Char
  | .styleClass => ": StylableClass<\x7b".toList
  | .state => "?: boolean;".toList
  | .stVar | .cssVar | .keyframes => ": string;".toList

/-- What may stand between the annotation of a key and the end of the line.  Only a class without
states is closed on its line. -/
def SymbolKind.Closes (kind : SymbolKind) (tail : List Char) : Prop :=
  tail = [] ∨ kind = .styleClass ∧ tail = "\x7d>;".toList

/-- A line with a key. -/
def keyLine (spaces : Nat) (name : String) (kind : SymbolKind) (tail : List Char) : List Char :=
  List.replicate spaces ' ' ++ ['"'] ++
    ((Key.escapeAll name).toList ++ '"' :: (kind.annotation ++ tail))

theorem lineFeed_not_mem_indentedQuote (spaces : Nat) :
    '\n' ∉ List.replicate spaces ' ' ++ ['"'] := by
  simp

theorem lineFeed_not_mem_keyLine (spaces : Nat) (name : String) {kind : SymbolKind}
    {tail : List Char} (h : kind.Closes tail) : '\n' ∉ keyLine spaces name kind tail := by
  have hkey := Key.lineFeed_not_mem_escapeAll name
  have hkind : '\n' ∉ kind.annotation := by cases kind with
    | styleClass => decide
    | state => decide
    | stVar => decide
    | cssVar => decide
    | keyframes => decide
  have htail : '\n' ∉ tail := by
    rcases h with rfl | ⟨-, rfl⟩
    · exact List.not_mem_nil
    · decide
  simp [keyLine, hkey, hkind, htail]

theorem Piece.text_eq_keyLine {indent : String} {kind : SymbolKind} {owner : Option String}
    {n : Named} {rest : String} {spaces : Nat} {tail : List Char}
    (hindent : indent.toList = List.replicate spaces ' ')
    (hrest : rest.toList = kind.annotation ++ tail ++ ['\n']) :
    (key indent ⟨kind, owner, n⟩ rest).text = keyLine spaces n.name kind tail ++ ['\n'] := by
  rw [text, hindent, hrest, keyLine]
  simp only [List.append_assoc, List.cons_append, List.nil_append]

/-- A key that a declaration is made of fills a line. -/
theorem Piece.Form.exists_keyLine {indent : String} {e : Entry} {rest : String}
    (h : (key indent e rest).Form) :
    ∃ spaces tail, spaces ≤ 8 ∧ indent.toList = List.replicate spaces ' ' ∧ e.kind.Closes tail ∧
      (key indent e rest).text = keyLine spaces e.named.name e.kind tail ++ ['\n'] := by
  have hindent : TypedStyles.indent.toList = List.replicate 4 ' ' := by decide
  cases h with
  | emptyClass n =>
      exact ⟨4, _, by decide, hindent, Or.inr ⟨rfl, rfl⟩, text_eq_keyLine hindent (by decide)⟩
  | openClass n =>
      exact ⟨4, _, by decide, hindent, Or.inl rfl, text_eq_keyLine hindent (by decide)⟩
  | state owner n =>
      have htwice : (TypedStyles.indent ++ TypedStyles.indent).toList = List.replicate 8 ' ' := by
        decide
      exact ⟨8, _, by decide, htwice, Or.inl rfl, text_eq_keyLine htwice (by decide)⟩
  | @name kind hkind n =>
      refine ⟨4, _, by decide, hindent, Or.inl rfl, text_eq_keyLine hindent ?_⟩
      cases kind with
      | styleClass => exact absurd rfl hkind.1
      | state => exact absurd rfl hkind.2
      | stVar => decide
      | cssVar => decide
      | keyframes => decide

/-! ## The position of a key -/

theorem Piece.Whole.ended {b : Piece} (h : b.Whole) : Ended b.text := by
  cases b with
  | plain s => exact Or.inr h
  | key indent e rest =>
      right
      rw [text, List.getLast?_append, List.getLast?_append, h]
      rfl

theorem utf16_indent (spaces : Nat) :
    utf16 (List.replicate spaces ' ' ++ ['"']) = List.replicate spaces 0x20 ++ [0x22] := by
  have hspace : utf16Units ' ' = [0x20] := by decide
  have hspaces : utf16 (List.replicate spaces ' ') = List.replicate spaces 0x20 := by
    induction spaces with
    | zero => rfl
    | succ n ih => rw [List.replicate_succ, utf16_cons, ih, hspace, List.replicate_succ]; rfl
  rw [utf16_append, hspaces]
  rfl

/-- An anchor stands on a line with its key, right behind the quote that opens the key. -/
theorem Metadata.line_of_mem_emit_anchors {m : Metadata} {source : String}
    {recording : Recording} {a : Anchor} (ha : a ∈ (m.emit source recording).anchors)
    (hlines : ((m.emit source recording).text.toList.splitOn '\n').length < 0x100000000) :
    ∃ spaces tail, spaces ≤ 8 ∧ a.kind.Closes tail ∧ 0 < a.generated.line.toNat ∧
      ((m.emit source recording).text.toList.splitOn '\n')[a.generated.line.toNat - 1]?
        = some (keyLine spaces a.name a.kind tail) ∧
      a.generated.column.toNat = spaces + 1 := by
  rw [emit_anchors] at ha
  obtain ⟨before, b, after, hsplit, hb⟩ := Piece.exists_split_of_mem_anchorsFrom ha
  obtain ⟨indent, rest, rfl, hgenerated⟩ := Piece.eq_key_of_anchor? hb
  have hmem : Piece.key indent a.entry rest ∈ m.pieces := by
    rw [hsplit]
    exact List.mem_append_right before List.mem_cons_self
  obtain ⟨spaces, tail, hspaces, hindent, hcloses, hkey⟩ :=
    (form_of_mem_pieces hmem).exists_keyLine
  have hended : Ended (before.flatMap Piece.text) := by
    apply Ended.flatMap
    intro c hc
    refine (m.whole_of_mem_pieces c ?_).ended
    rw [hsplit]
    exact List.mem_append_left _ hc
  have htext : m.pieces.flatMap Piece.text = before.flatMap Piece.text ++
      (keyLine spaces a.name a.kind tail ++ '\n' :: after.flatMap Piece.text) := by
    rw [hsplit, List.flatMap_append, List.flatMap_cons, hkey, List.append_assoc]
    rfl
  rw [hindent] at hgenerated
  have hquote := List.count_eq_zero.mpr (lineFeed_not_mem_indentedQuote spaces)
  have hline : a.generated.line.toNat = 1 + (before.flatMap Piece.text).count '\n' := by
    rw [toList_emit_text, length_splitOn, htext, List.count_append] at hlines
    have hone : Position.start.line.toNat = 1 := rfl
    rw [hgenerated, ← Position.after_append, Position.toNat_line_after, List.count_append, hquote,
      hone, Nat.add_zero]
    rw [List.count_append, hquote, hone]
    omega
  have hcolumn : a.generated.column.toNat = spaces + 1 := by
    have hlength : (utf16 (List.replicate spaces ' ' ++ ['"'])).length = spaces + 1 := by
      rw [utf16_indent, List.length_append, List.length_replicate, List.length_singleton]
    rw [hgenerated, column_after (lineFeed_not_mem_indentedQuote spaces), hended.column_after rfl,
      hlength, UInt32.zero_add, UInt32.toNat_ofNat_of_lt']
    exact Nat.lt_of_le_of_lt (Nat.succ_le_succ hspaces) (by decide)
  refine ⟨spaces, tail, hspaces, hcloses, by omega, ?_, hcolumn⟩
  rw [toList_emit_text, htext, hline, Nat.add_sub_cancel_left]
  exact getElem?_splitOn_line hended (lineFeed_not_mem_keyLine spaces a.name hcloses) _

/-! ## The rule of the anchors -/

/-- The anchor stands on this line at its key.  Columns count UTF-16 code units. -/
structure Anchor.HeadsKey (line : List Char) (a : Anchor) : Prop where
  /-- The quote that opens the key stands right before the anchor, and only spaces before it. -/
  quote : (utf16 line).take a.generated.column.toNat
    = List.replicate (a.generated.column.toNat - 1) 0x20 ++ [0x22]
  /-- From the anchor on there is the key, the quote that closes it, and text that tells the kind
  of its name. -/
  key : ∃ tail, a.kind.Closes tail ∧ (utf16 line).drop a.generated.column.toNat
    = utf16 ((Key.escapeAll a.name).toList ++ '"' :: (a.kind.annotation ++ tail))

theorem Anchor.headsKey_keyLine {a : Anchor} {spaces : Nat} {tail : List Char}
    (hcolumn : a.generated.column.toNat = spaces + 1) (htail : a.kind.Closes tail) :
    a.HeadsKey (keyLine spaces a.name a.kind tail) := by
  have hlength : (List.replicate spaces (0x20 : UInt16) ++ [0x22]).length = spaces + 1 := by
    rw [List.length_append, List.length_replicate, List.length_singleton]
  have hline : utf16 (keyLine spaces a.name a.kind tail)
      = (List.replicate spaces 0x20 ++ [0x22]) ++
        utf16 ((Key.escapeAll a.name).toList ++ '"' :: (a.kind.annotation ++ tail)) := by
    rw [keyLine, utf16_append, utf16_indent]
  constructor
  · rw [hline, hcolumn, ← hlength, List.take_left, hlength, Nat.add_sub_cancel]
  · rw [hline, hcolumn, ← hlength, List.drop_left]
    exact ⟨tail, htail, rfl⟩

/-- **The rule of the anchors.**  The line of an anchor exists, and the anchor stands on it at the
key of its name.  Every anchor stands on a line below the anchor before, so no two share a
line. -/
theorem Metadata.emit_anchors_at_keys {m : Metadata} {source : String} {recording : Recording}
    (hlines : ((m.emit source recording).text.toList.splitOn '\n').length < 0x100000000) :
    (∀ a ∈ (m.emit source recording).anchors, ∃ line, 0 < a.generated.line.toNat ∧
        ((m.emit source recording).text.toList.splitOn '\n')[a.generated.line.toNat - 1]?
          = some line ∧
        a.HeadsKey line) ∧
      (m.emit source recording).anchors.Pairwise fun a b =>
        a.generated.line < b.generated.line := by
  refine ⟨fun a ha => ?_, pairwise_emit_anchors hlines⟩
  obtain ⟨spaces, tail, -, htail, hpos, hline, hcolumn⟩ := line_of_mem_emit_anchors ha hlines
  exact ⟨_, hpos, hline, a.headsKey_keyLine hcolumn htail⟩

/-- A class whose name has two code units for one character, and a state with a quote and a
control character in its name. -/
def escapedMetadata : Metadata where
  nameSpace := "n"
  classes := [⟨"😀", none, [⟨"é\"\x01", some ⟨7, 2⟩⟩]⟩]
  stVars := []
  cssVars := []
  keyframes := []

theorem Metadata.emit_anchors_at_keys_escaped :
    ((escapedMetadata.emit "a.css" .empty).text.toList.splitOn '\n').length < 0x100000000 ∧
      ∃ line, ((escapedMetadata.emit "a.css" .empty).text.toList.splitOn '\n')[6]? = some line ∧
        (utf16 line).take 9 = [0x20, 0x20, 0x20, 0x20, 0x20, 0x20, 0x20, 0x20, 0x22] ∧
        (utf16 line).drop 9 = utf16 "é\\\"\\u0001\"?: boolean;".toList := by
  have hlines :
      ((escapedMetadata.emit "a.css" .empty).text.toList.splitOn '\n').length < 0x100000000 := by
    rw [length_splitOn_emit]
    decide
  have hanchors : (escapedMetadata.emit "a.css" .empty).anchors
      = [⟨.styleClass, none, "😀", ⟨6, 5⟩, none⟩,
        ⟨.state, some "😀", "é\"\x01", ⟨7, 9⟩, some ⟨7, 2⟩⟩] := by decide +kernel
  obtain ⟨line, -, hline, hheads⟩ := (emit_anchors_at_keys hlines).1
    ⟨.state, some "😀", "é\"\x01", ⟨7, 9⟩, some ⟨7, 2⟩⟩ (by rw [hanchors]; simp)
  obtain ⟨tail, rfl | ⟨hkind, -⟩, hkey⟩ := hheads.key
  · exact ⟨hlines, line, hline, hheads.quote, hkey.trans (by decide +kernel)⟩
  · cases hkind

end TypedStyles
