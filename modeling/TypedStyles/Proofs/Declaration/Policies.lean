import TypedStyles.Proofs.Declaration.Names
import TypedStyles.Proofs.Stylesheet.Surface

/-!
# A policy decides positions and nothing else

A stylesheet is accepted under both policies or under neither.  The two metadata
differ in positions alone, and so do the anchors of the two declarations, whose
texts are the same.  Where nothing is declared twice the policy has no part at
all (`CompiledSheet.normalize_policies`).

Under either policy the names are those of the first declarations.  The policy
picks a declaration for each name, and only the position of that declaration is
read.
-/

namespace TypedStyles

/-! ## Merged records under two policies -/

/-- Among one declaration at most, every policy picks the same. -/
theorem DuplicatePolicy.pick_eq_pick {α : Type} (p q : DuplicatePolicy) {ds : List α}
    (h : ds.length ≤ 1) : p.pick ds = q.pick ds := by
  have hpick : ∀ r : DuplicatePolicy, r.pick ds = ds.head? := by
    intro r
    cases r with
    | firstWins => rfl
    | lastWins =>
        match ds, h with
        | [], _ => rfl
        | [_], _ => rfl
  rw [hpick, hpick]

section TwoPolicies

variable (p q : DuplicatePolicy)

namespace Named

theorem unplaced_mergeAll (ns : List Named) :
    (mergeAll p ns).map unplaced = (mergeAll q ns).map unplaced := by
  rw [mergeAll, mergeAll, List.map_map, List.map_map]
  rfl

theorem mergeAll_eq_mergeAll {ns : List Named} (h : ∀ x, (declarations x ns).length ≤ 1) :
    mergeAll p ns = mergeAll q ns := by
  rw [mergeAll, mergeAll]
  apply List.map_congr_left
  intro x _
  rw [merged, merged, p.pick_eq_pick q (h x)]

end Named

namespace StyleClass

theorem unplaced_merged (cs : List StyleClass) (x : String) :
    (merged p cs x).unplaced = (merged q cs x).unplaced := by
  rw [unplaced, merged, unplaced, merged, Named.unplaced_mergeAll p q]

theorem merged_eq_merged {cs : List StyleClass} {x : String} (h : (declarations x cs).length ≤ 1)
    (hstates : ∀ y, (Named.declarations y (allStates x cs)).length ≤ 1) :
    merged p cs x = merged q cs x := by
  rw [merged, merged, p.pick_eq_pick q h, Named.mergeAll_eq_mergeAll p q hstates]

theorem unplaced_mergeAll (root : String) (cs : List StyleClass) :
    (mergeAll p root cs).map unplaced = (mergeAll q root cs).map unplaced := by
  rw [mergeAll, mergeAll, List.map_map, List.map_map]
  exact List.map_congr_left fun x _ => unplaced_merged p q cs x

end StyleClass

/-! ## Metadata under two policies -/

/-- No name is declared twice in one kind, and no state is declared twice in one class. -/
structure Symbol.DeclaredOnce (symbols : List Symbol) : Prop where
  names : ∀ kind x, (declarations kind x symbols).length ≤ 1
  states : ∀ className state, (stateDeclarations className state symbols).length ≤ 1

namespace Metadata

variable (nameSpace root : String) (symbols : List Symbol)

theorem unplaced_ofSymbols :
    (ofSymbols p nameSpace root symbols).unplaced
      = (ofSymbols q nameSpace root symbols).unplaced := by
  simp only [unplaced, ofSymbols, StyleClass.unplaced_mergeAll p q, Named.unplaced_mergeAll p q]

theorem ofSymbols_eq_ofSymbols {symbols : List Symbol} (h : Symbol.DeclaredOnce symbols) :
    ofSymbols p nameSpace root symbols = ofSymbols q nameSpace root symbols := by
  have hstVars : Named.mergeAll p (symbols.filterMap Symbol.stVar?)
      = Named.mergeAll q (symbols.filterMap Symbol.stVar?) :=
    Named.mergeAll_eq_mergeAll p q (h.names .stVar)
  have hcssVars : Named.mergeAll p (symbols.filterMap Symbol.cssVar?)
      = Named.mergeAll q (symbols.filterMap Symbol.cssVar?) :=
    Named.mergeAll_eq_mergeAll p q (h.names .cssVar)
  have hkeyframes : Named.mergeAll p (symbols.filterMap Symbol.keyframes?)
      = Named.mergeAll q (symbols.filterMap Symbol.keyframes?) :=
    Named.mergeAll_eq_mergeAll p q (h.names .keyframes)
  have hclasses : StyleClass.mergeAll p root (symbols.filterMap Symbol.class?)
      = StyleClass.mergeAll q root (symbols.filterMap Symbol.class?) := by
    rw [StyleClass.mergeAll, StyleClass.mergeAll]
    apply List.map_congr_left
    intro x _
    have hone := h.names .styleClass x
    rw [Symbol.declarations_styleClass, List.length_map] at hone
    exact StyleClass.merged_eq_merged p q hone (h.states x)
  simp only [ofSymbols, hclasses, hstVars, hcssVars, hkeyframes]

end Metadata

end TwoPolicies

/-! ## Anchors without positions -/

/-- An anchor, the position of its name in the stylesheet left out. -/
def Anchor.unplaced (a : Anchor) : Anchor := { a with declared := none }

theorem Piece.anchorsFrom_map_unplaced (p : Position) (bs : List Piece) :
    anchorsFrom p (bs.map unplaced) = (anchorsFrom p bs).map Anchor.unplaced := by
  induction bs generalizing p with
  | nil => rfl
  | cons b bs ih =>
      have hanchor : b.unplaced.anchor? p = (b.anchor? p).map Anchor.unplaced := by
        cases b with
        | plain s => rfl
        | key indent e rest => rfl
      rw [List.map_cons, anchorsFrom, anchorsFrom, hanchor, text_unplaced, ih, List.map_append,
        Option.toList_map]

namespace Metadata

/-- Without positions a declaration has the same anchors, their positions left out. -/
theorem map_unplaced_emit_anchors (m : Metadata) (source : String) (recording : Recording) :
    (m.emit source recording).anchors.map Anchor.unplaced
      = Piece.anchorsFrom .start m.unplaced.pieces := by
  rw [emit_anchors, pieces_unplaced, Piece.anchorsFrom_map_unplaced]

theorem emit_text_eq (m : Metadata) (source : String) (recording : Recording) :
    (m.emit source recording).text = String.ofList (m.unplaced.pieces.flatMap Piece.text) := by
  rw [flatMap_text_pieces_unplaced, ← toList_emit_text m source recording, String.ofList_toList]

end Metadata

/-! ## Two runs -/

/-- **The policy decides positions only.**  Under both policies a stylesheet is refused with the
same fault, or it has metadata that differ in positions alone.  Then the two declarations have the
same text, and their anchors differ at most in the positions of the names in the stylesheet.  Where
nothing is declared twice the two metadata are the same. -/
theorem CompiledSheet.normalize_policies (sheet : CompiledSheet) :
    (∃ e, sheet.normalize .firstWins = .error e ∧ sheet.normalize .lastWins = .error e) ∨
      ∃ first last, sheet.normalize .firstWins = .ok first ∧ sheet.normalize .lastWins = .ok last ∧
        first.unplaced = last.unplaced ∧
        (∀ source₁ source₂ recording₁ recording₂,
          (first.emit source₁ recording₁).text = (last.emit source₂ recording₂).text ∧
          (first.emit source₁ recording₁).anchors.map Anchor.unplaced
            = (last.emit source₂ recording₂).anchors.map Anchor.unplaced) ∧
        (∀ symbols, sheet.symbols = some symbols → Symbol.DeclaredOnce symbols → first = last) := by
  cases hchecked : sheet.checked with
  | error e =>
      have hnormalize : ∀ policy, sheet.normalize policy = .error e := by
        intro policy
        rw [normalize_eq, hchecked]
        rfl
      exact .inl ⟨e, hnormalize .firstWins, hnormalize .lastWins⟩
  | ok c =>
      have hnormalize : ∀ policy,
          sheet.normalize policy = .ok (.ofSymbols policy c.1 c.2.1 c.2.2) := by
        intro policy
        rw [normalize_eq, hchecked]
        rfl
      have hunplaced := Metadata.unplaced_ofSymbols .firstWins .lastWins c.1 c.2.1 c.2.2
      refine .inr ⟨_, _, hnormalize .firstWins, hnormalize .lastWins, hunplaced,
        fun _ _ _ _ => ⟨?_, ?_⟩, fun symbols hsymbols once => ?_⟩
      · rw [Metadata.emit_text_eq, Metadata.emit_text_eq, hunplaced]
      · rw [Metadata.map_unplaced_emit_anchors, Metadata.map_unplaced_emit_anchors, hunplaced]
      · have hsame := Option.some.inj (hsymbols.symm.trans (of_checked hchecked).2.2)
        exact Metadata.ofSymbols_eq_ofSymbols _ _ c.1 c.2.1 (hsame ▸ once)

/-- A class and one of its states, each declared twice. -/
def redeclaredSheet : CompiledSheet where
  nameSpace := some "n"
  root := none
  symbols := some [.styleClass ⟨"a", some ⟨2, 0⟩, [⟨"x", some ⟨2, 5⟩⟩]⟩,
    .styleClass ⟨"a", some ⟨7, 0⟩, [⟨"x", none⟩, ⟨"y", none⟩]⟩]

/-- A class and a variable of the same name, each declared once. -/
def distinctSymbols : List Symbol :=
  [.styleClass ⟨"a", some ⟨2, 0⟩, [⟨"x", none⟩]⟩, .stVar ⟨"a", some ⟨4, 1⟩⟩]

theorem CompiledSheet.normalize_policies_redeclared :
    (∃ first last, redeclaredSheet.normalize .firstWins = .ok first ∧
      redeclaredSheet.normalize .lastWins = .ok last ∧
      first ≠ last ∧ first.unplaced = last.unplaced) ∧
    ∃ m, CompiledSheet.normalize .firstWins ⟨some "n", none, some distinctSymbols⟩ = .ok m ∧
      CompiledSheet.normalize .lastWins ⟨some "n", none, some distinctSymbols⟩ = .ok m := by
  constructor
  · rcases normalize_policies redeclaredSheet with
      ⟨e, he, -⟩ | ⟨first, last, hfirst, hlast, h, -, -⟩
    · have haccepted : (redeclaredSheet.normalize .firstWins).toOption.isSome = true := by
        decide +kernel
      rw [he] at haccepted
      cases haccepted
    · refine ⟨first, last, hfirst, hlast, fun hsame => ?_, h⟩
      have hnormalize := hfirst.trans (hsame ▸ hlast.symm)
      exact absurd (congrArg (·.toOption) hnormalize) (by decide +kernel)
  · have once : Symbol.DeclaredOnce distinctSymbols := by
      constructor
      · intro kind x
        refine Nat.le_trans (List.length_filter_le _ _) ?_
        cases kind <;> decide
      · intro className state
        refine Nat.le_trans (List.length_filter_le _ _) ?_
        have hclasses : distinctSymbols.filterMap Symbol.class?
            = [⟨"a", some ⟨2, 0⟩, [⟨"x", none⟩]⟩] := rfl
        rw [hclasses, StyleClass.allStates, StyleClass.declarations]
        by_cases h : "a" = className
        · rw [List.filter_cons_of_pos (by simpa using h), List.filter_nil]
          decide
        · rw [List.filter_cons_of_neg (by simpa using h), List.filter_nil]
          decide
    rcases normalize_policies ⟨some "n", none, some distinctSymbols⟩ with
      ⟨e, he, -⟩ | ⟨first, last, hfirst, hlast, -, -, h⟩
    · have haccepted : (CompiledSheet.normalize .firstWins
          ⟨some "n", none, some distinctSymbols⟩).toOption.isSome = true := by decide +kernel
      rw [he] at haccepted
      cases haccepted
    · exact ⟨first, hfirst, h distinctSymbols rfl once ▸ hlast⟩

end TypedStyles
