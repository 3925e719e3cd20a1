import TypedStyles.Proofs.Declaration.Key
import TypedStyles.Proofs.Declaration.Pieces

/-!
# Lines of a declaration

A piece of a declaration has one of five forms (`Metadata.form_of_mem_pieces`).
It ends with a line feed, and a key holds none.  So no two keys stand on one
line, and every anchor stands on a line below the anchor before
(`Metadata.pairwise_emit_anchors`).  How many lines there are depends on the
number of names alone (`Metadata.length_splitOn_emit`).
-/

namespace TypedStyles

/-! ## The forms of a piece -/

namespace Piece

/-- The forms that a piece of a declaration has. -/
inductive Form : Piece → Prop
  | plain {s : String} (h : s.toList.getLast? = some '\n') : Form (.plain s)
  | emptyClass (n : Named) :
      Form (key indent ⟨.styleClass, none, n⟩ ": StylableClass<\x7b\x7d>;\n")
  | openClass (n : Named) : Form (key indent ⟨.styleClass, none, n⟩ ": StylableClass<\x7b\n")
  | state (owner : String) (n : Named) :
      Form (key (indent ++ indent) ⟨.state, some owner, n⟩ "?: boolean;\n")
  | name {kind : SymbolKind} (hkind : kind ≠ .styleClass ∧ kind ≠ .state) (n : Named) :
      Form (key indent ⟨kind, none, n⟩ ": string;\n")

theorem getLast?_append_of_some {s t : String} {c : Char} (h : t.toList.getLast? = some c) :
    (s ++ t).toList.getLast? = some c := by
  rw [String.toList_append, List.getLast?_append, h]
  rfl

theorem form_keys {indent : String} {kind : SymbolKind} {owner : Option String}
    {ns : List Named} {rest : String} (h : ∀ n, (key indent ⟨kind, owner, n⟩ rest).Form) :
    ∀ b ∈ keys indent kind owner ns rest, b.Form := by
  intro b hb
  obtain ⟨n, -, rfl⟩ := List.mem_map.mp hb
  exact h n

theorem form_object {title : String} {inside : List Piece} (h : ∀ b ∈ inside, b.Form) :
    ∀ b ∈ object title inside, b.Form := by
  intro b hb
  rcases List.mem_append.mp hb with hb | hb
  · rcases List.mem_cons.mp hb with rfl | hb
    · exact .plain (getLast?_append_of_some rfl)
    · exact h b hb
  · rw [List.mem_singleton.mp hb]
    exact .plain rfl

theorem form_styleClass (c : StyleClass) : ∀ b ∈ styleClass c, b.Form := by
  intro b hb
  rw [styleClass] at hb
  split at hb
  next =>
    rw [List.mem_singleton.mp hb]
    exact .emptyClass c.named
  next =>
    rcases List.mem_append.mp hb with hb | hb
    · rcases List.mem_cons.mp hb with rfl | hb
      · exact .openClass c.named
      · exact form_keys (Form.state c.name) b hb
    · rw [List.mem_singleton.mp hb]
      exact .plain (getLast?_append_of_some rfl)

theorem form_classes (cs : List StyleClass) : ∀ b ∈ classes cs, b.Form := by
  rw [classes]
  split
  next =>
    intro b hb
    rw [List.mem_singleton.mp hb]
    exact .plain rfl
  next =>
    apply form_object
    intro b hb
    obtain ⟨c, -, hc⟩ := List.mem_flatMap.mp hb
    exact form_styleClass c b hc

theorem form_group (title : String) {kind : SymbolKind}
    (hkind : kind ≠ .styleClass ∧ kind ≠ .state) (ns : List Named) :
    ∀ b ∈ group title kind ns, b.Form := by
  rw [group]
  split
  next =>
    intro b hb
    rw [List.mem_singleton.mp hb]
    exact .plain (getLast?_append_of_some rfl)
  next => exact form_object (form_keys (Form.name hkind))

end Piece

theorem Metadata.form_of_mem_pieces {m : Metadata} {b : Piece} (hb : b ∈ m.pieces) : b.Form := by
  rcases List.mem_cons.mp hb with rfl | hb
  · exact .plain (Piece.getLast?_append_of_some (Piece.getLast?_append_of_some rfl))
  · simp only [List.mem_append, List.mem_singleton] at hb
    rcases hb with (((hb | hb) | hb) | hb) | rfl
    · exact Piece.form_classes _ b hb
    · exact Piece.form_group _ (by decide) _ b hb
    · exact Piece.form_group _ (by decide) _ b hb
    · exact Piece.form_group _ (by decide) _ b hb
    · exact .plain (Piece.getLast?_append_of_some rfl)

/-! ## Every key has its line -/

/-- The piece ends with a line feed, and behind its key if it has one. -/
def Piece.Whole : Piece → Prop
  | plain s => s.toList.getLast? = some '\n'
  | key _ _ rest => rest.toList.getLast? = some '\n'

theorem Piece.Form.whole {b : Piece} (h : b.Form) : b.Whole := by
  cases h with
  | plain h => exact h
  | emptyClass n => rfl
  | openClass n => rfl
  | state owner n => rfl
  | name hkind n => rfl

theorem Metadata.whole_of_mem_pieces (m : Metadata) : ∀ b ∈ m.pieces, b.Whole :=
  fun _ hb => (form_of_mem_pieces hb).whole

/-- Anchors of whole pieces stand each below the one before, if their lines can be counted. -/
theorem Piece.pairwise_anchorsFrom {p : Position} {bs : List Piece} (whole : ∀ b ∈ bs, b.Whole)
    (h : p.line.toNat + (bs.flatMap text).count '\n' < 0x100000000) :
    (anchorsFrom p bs).Pairwise (fun a b => a.generated.line < b.generated.line) ∧
      ∀ a ∈ anchorsFrom p bs, p.line.toNat ≤ a.generated.line.toNat := by
  induction bs generalizing p with
  | nil => exact ⟨.nil, fun a ha => nomatch ha⟩
  | cons b bs ih =>
      rw [List.flatMap_cons, List.count_append] at h
      have hbelow : (p.after b.text).line.toNat = p.line.toNat + b.text.count '\n' :=
        Position.toNat_line_after (by omega)
      obtain ⟨hpairs, hlines⟩ := @ih (p.after b.text)
        (fun c hc => whole c (List.mem_cons_of_mem b hc)) (by omega)
      cases b with
      | plain s =>
          refine ⟨hpairs, fun a ha => ?_⟩
          have := hlines a ha
          omega
      | key indent e rest =>
          have hrest : 0 < rest.toList.count '\n' :=
            List.count_pos_iff.mpr (List.mem_of_getLast? (whole _ List.mem_cons_self))
          have hcount : (key indent e rest).text.count '\n'
              = (indent.toList ++ ['"']).count '\n' +
                ((Key.escapeAll e.named.name).toList ++ ['"'] ++ rest.toList).count '\n' :=
            List.count_append
          have htail : rest.toList.count '\n' ≤
              ((Key.escapeAll e.named.name).toList ++ ['"'] ++ rest.toList).count '\n' := by
            rw [List.count_append]
            exact Nat.le_add_left _ _
          have hkey : (p.after (indent.toList ++ ['"'])).line.toNat
              = p.line.toNat + (indent.toList ++ ['"']).count '\n' :=
            Position.toNat_line_after (by omega)
          rw [anchorsFrom, anchor?, Option.toList_some, List.singleton_append]
          constructor
          · apply List.pairwise_cons.mpr
            refine ⟨fun a ha => ?_, hpairs⟩
            have hline := hlines a ha
            apply UInt32.lt_iff_toNat_lt.mpr
            show (p.after (indent.toList ++ ['"'])).line.toNat < a.generated.line.toNat
            omega
          · intro a ha
            rcases List.mem_cons.mp ha with rfl | ha
            · show p.line.toNat ≤ (p.after (indent.toList ++ ['"'])).line.toNat
              omega
            · have hline := hlines a ha
              omega

/-- Every anchor of a declaration stands on a line below the anchor before. -/
theorem Metadata.pairwise_emit_anchors {m : Metadata} {source : String} {recording : Recording}
    (h : ((m.emit source recording).text.toList.splitOn '\n').length < 0x100000000) :
    (m.emit source recording).anchors.Pairwise fun a b =>
      a.generated.line < b.generated.line := by
  rw [length_splitOn, toList_emit_text] at h
  have hone : Position.start.line.toNat = 1 := rfl
  rw [emit_anchors]
  exact (Piece.pairwise_anchorsFrom m.whole_of_mem_pieces (by omega)).1

/-! ## The number of lines -/

def lineFeedsOfGroup (names : Nat) : Nat := if names = 0 then 1 else names + 2

def StyleClass.lineFeeds (c : StyleClass) : Nat :=
  if c.states = [] then 1 else c.states.length + 2

def lineFeedsOfClasses : List StyleClass → Nat
  | [] => 0
  | c :: cs => c.lineFeeds + lineFeedsOfClasses cs

/-- The line feeds of a declaration. -/
def Metadata.lineFeeds (m : Metadata) : Nat :=
  7 + (if m.classes = [] then 1 else lineFeedsOfClasses m.classes + 2) +
    lineFeedsOfGroup m.stVars.length + lineFeedsOfGroup m.cssVars.length +
    lineFeedsOfGroup m.keyframes.length

namespace Piece

def lineFeeds (bs : List Piece) : Nat := (bs.flatMap text).count '\n'

theorem lineFeeds_cons (b : Piece) (bs : List Piece) :
    lineFeeds (b :: bs) = b.text.count '\n' + lineFeeds bs := by
  rw [lineFeeds, List.flatMap_cons, List.count_append]
  rfl

theorem lineFeeds_append (bs cs : List Piece) :
    lineFeeds (bs ++ cs) = lineFeeds bs + lineFeeds cs := by
  rw [lineFeeds, List.flatMap_append, List.count_append]
  rfl

/-- The line of a key ends where the rest of it does. -/
theorem count_text_key {indent : String} (h : '\n' ∉ indent.toList) (e : Entry) (rest : String) :
    (key indent e rest).text.count '\n' = rest.toList.count '\n' := by
  have hname := List.count_eq_zero.mpr (Key.lineFeed_not_mem_escapeAll e.named.name)
  have hindent := List.count_eq_zero.mpr h
  have hquote : ['"'].count '\n' = 0 := by decide
  simp only [text, List.count_append, hname, hindent, hquote]
  omega

theorem lineFeeds_keys {indent : String} (h : '\n' ∉ indent.toList) (kind : SymbolKind)
    (owner : Option String) (ns : List Named) {rest : String}
    (hrest : rest.toList.count '\n' = 1) :
    lineFeeds (keys indent kind owner ns rest) = ns.length := by
  induction ns with
  | nil => rfl
  | cons n ns ih =>
      have hcons : keys indent kind owner (n :: ns) rest
          = key indent ⟨kind, owner, n⟩ rest :: keys indent kind owner ns rest := rfl
      rw [hcons, lineFeeds_cons, count_text_key h, hrest, ih, List.length_cons, Nat.add_comm]

theorem lineFeeds_object {title : String} (h : '\n' ∉ title.toList) (inside : List Piece) :
    lineFeeds (object title inside) = lineFeeds inside + 2 := by
  have htitle := List.count_eq_zero.mpr h
  have hopen : (plain ("declare const " ++ title ++ ": \x7b\n")).text.count '\n' = 1 := by
    simp [text, htitle]
  have hclose : lineFeeds [plain "\x7d;\n"] = 1 := rfl
  rw [object, List.cons_append, lineFeeds_cons, lineFeeds_append, hopen, hclose]
  omega

theorem lineFeed_not_mem_indent : '\n' ∉ indent.toList := by decide

theorem lineFeeds_styleClass (c : StyleClass) : lineFeeds (styleClass c) = c.lineFeeds := by
  rw [styleClass, StyleClass.lineFeeds]
  split
  next => rw [lineFeeds_cons, count_text_key lineFeed_not_mem_indent]; rfl
  next =>
    have hindent : '\n' ∉ (indent ++ indent).toList := by decide
    have hclose : lineFeeds [plain (indent ++ "\x7d>;\n")] = 1 := by decide
    have hopen : (": StylableClass<\x7b\n" : String).toList.count '\n' = 1 := by decide
    rw [List.cons_append, lineFeeds_cons, lineFeeds_append, hclose,
      count_text_key lineFeed_not_mem_indent, lineFeeds_keys hindent _ _ _ (by decide), hopen]
    omega

theorem lineFeeds_classes (cs : List StyleClass) :
    lineFeeds (classes cs) = if cs = [] then 1 else lineFeedsOfClasses cs + 2 := by
  have hinside : lineFeeds (cs.flatMap styleClass) = lineFeedsOfClasses cs := by
    induction cs with
    | nil => rfl
    | cons c cs ih =>
        rw [List.flatMap_cons, lineFeeds_append, ih, lineFeeds_styleClass, lineFeedsOfClasses]
  rw [classes]
  split
  next => decide
  next => rw [lineFeeds_object (by decide), hinside]

theorem lineFeeds_group {title : String} (h : '\n' ∉ title.toList) (kind : SymbolKind)
    (ns : List Named) : lineFeeds (group title kind ns) = lineFeedsOfGroup ns.length := by
  have htitle := List.count_eq_zero.mpr h
  rw [group, lineFeedsOfGroup]
  by_cases hns : ns = []
  · rw [if_pos hns, if_pos (List.length_eq_zero_iff.mpr hns)]
    simp [lineFeeds, text, htitle]
  · rw [if_neg hns, if_neg fun hlength => hns (List.length_eq_zero_iff.mp hlength),
      lineFeeds_object h, lineFeeds_keys lineFeed_not_mem_indent _ _ _ (by decide)]

end Piece

theorem count_toList_append {s t : String} {c : Char} {m n : Nat} (hs : s.toList.count c = m)
    (ht : t.toList.count c = n) : (s ++ t).toList.count c = m + n := by
  rw [String.toList_append, List.count_append, hs, ht]

theorem Piece.count_text_opening (nameSpace : String) :
    (opening nameSpace).text.count '\n' = 4 := by
  have hheader : declarationHeader.toList.count '\n' = 1 := by decide +kernel
  have hclass : classType.toList.count '\n' = 1 := by decide +kernel
  have hblank : "\n".toList.count '\n' = 1 := by decide
  have hopen : "declare const namespace: \"".toList.count '\n' = 0 := by decide +kernel
  have hname := List.count_eq_zero.mpr (Key.lineFeed_not_mem_escapeAll nameSpace)
  have hclose : "\";\n".toList.count '\n' = 1 := by decide
  simp only [opening, text, String.toList_append, List.count_append, hheader, hclass, hblank,
    hopen, hname, hclose]

theorem Piece.lineFeeds_runtimeDeclarations : lineFeeds [.plain runtimeDeclarations] = 3 := by
  have hcount : runtimeDeclarations.toList.count '\n' = 0 + 2 + 1 :=
    count_toList_append (count_toList_append (by decide +kernel) (by decide +kernel))
      (by decide +kernel)
  rw [lineFeeds, List.flatMap_singleton, text, hcount]

/-- The number of lines of a declaration, the empty one at the end counted too. -/
theorem Metadata.length_splitOn_emit (m : Metadata) (source : String) (recording : Recording) :
    ((m.emit source recording).text.toList.splitOn '\n').length = m.lineFeeds + 1 := by
  have hpieces : Piece.lineFeeds m.pieces = m.lineFeeds := by
    have hstVars : '\n' ∉ "stVars".toList := by decide
    have hvars : '\n' ∉ "vars".toList := by decide
    have hkeyframes : '\n' ∉ "keyframes".toList := by decide
    rw [pieces, Piece.lineFeeds_cons, Piece.count_text_opening]
    simp only [Piece.lineFeeds_append, Piece.lineFeeds_runtimeDeclarations,
      Piece.lineFeeds_classes, Piece.lineFeeds_group hstVars, Piece.lineFeeds_group hvars,
      Piece.lineFeeds_group hkeyframes, lineFeeds]
    omega
  rw [length_splitOn, toList_emit_text, ← hpieces, Piece.lineFeeds]

end TypedStyles
