import TypedStyles.Text.Position

/-!
# Positions and lines

Positions are ordered totally.  A walk over a text moves down by one line for
each line feed, as long as the count of lines fits in 32 bits
(`toNat_line_after`), and there is one line more than there are line feeds
(`length_splitOn`).
-/

namespace TypedStyles

namespace Position

variable {p q r : Position}

/-! ## Order -/

theorem le_refl (p : Position) : p ≤ p := Or.inr ⟨rfl, UInt32.le_refl _⟩

theorem le_trans (hpq : p ≤ q) (hqr : q ≤ r) : p ≤ r := by
  rcases hpq with hpq | ⟨hpq, hcpq⟩
  · rcases hqr with hqr | ⟨hqr, -⟩
    · exact Or.inl (UInt32.lt_trans hpq hqr)
    · exact Or.inl (hqr ▸ hpq)
  · rcases hqr with hqr | ⟨hqr, hcqr⟩
    · exact Or.inl (hpq ▸ hqr)
    · exact Or.inr ⟨hpq.trans hqr, UInt32.le_trans hcpq hcqr⟩

theorem le_total (p q : Position) : p ≤ q ∨ q ≤ p := by
  by_cases hpq : p.line < q.line
  · exact Or.inl (Or.inl hpq)
  · by_cases hqp : q.line < p.line
    · exact Or.inr (Or.inl hqp)
    · have hline : p.line = q.line :=
        UInt32.le_antisymm (UInt32.not_lt.mp hqp) (UInt32.not_lt.mp hpq)
      rcases UInt32.le_total p.column q.column with hcolumn | hcolumn
      · exact Or.inl (Or.inr ⟨hline, hcolumn⟩)
      · exact Or.inr (Or.inr ⟨hline.symm, hcolumn⟩)

theorem not_le_iff : ¬ p ≤ q ↔ q.line < p.line ∨ q.line = p.line ∧ q.column < p.column := by
  rw [le_iff, not_or, not_and, UInt32.not_lt, UInt32.not_le, UInt32.le_iff_lt_or_eq]
  constructor
  · rintro ⟨hline | hline, hcolumn⟩
    · exact Or.inl hline
    · exact Or.inr ⟨hline, hcolumn hline.symm⟩
  · rintro (hline | ⟨hline, hcolumn⟩)
    · exact ⟨Or.inl hline, fun h => absurd h.symm (UInt32.ne_of_lt hline)⟩
    · exact ⟨Or.inr hline, fun _ => hcolumn⟩

theorem le_of_line_lt (h : p.line < q.line) : p ≤ q := Or.inl h

theorem line_le_of_le (h : p ≤ q) : p.line ≤ q.line := by
  rcases h with h | ⟨h, -⟩
  · exact UInt32.le_of_lt h
  · exact UInt32.le_of_eq h

/-! ## Walking over lines -/

theorem line_advance (p : Position) (c : Char) :
    (p.advance c).line = if c = '\n' then p.line + 1 else p.line := by
  rw [advance]
  split
  next => rfl
  next => rfl

/-- A walk passes one line for each line feed, if the lines can be counted. -/
theorem toNat_line_after {p : Position} {text : List Char}
    (h : p.line.toNat + text.count '\n' < 0x100000000) :
    (p.after text).line.toNat = p.line.toNat + text.count '\n' := by
  induction text generalizing p with
  | nil => rfl
  | cons c text ih =>
      rw [after_cons]
      by_cases hc : c = '\n'
      · rw [hc, List.count_cons_self] at h ⊢
        have hone : (1 : UInt32).toNat = 1 := rfl
        have hline : (p.advance '\n').line.toNat = p.line.toNat + 1 := by
          rw [line_advance, if_pos rfl, UInt32.toNat_add, hone]
          omega
        rw [ih (by omega), hline]
        omega
      · rw [List.count_cons_of_ne hc] at h ⊢
        have hline : (p.advance c).line = p.line := by rw [line_advance, if_neg hc]
        rw [ih (by rw [hline]; exact h), hline]

end Position

/-- A text has a line more than it has line feeds. -/
theorem length_splitOn (c : Char) (text : List Char) :
    (text.splitOn c).length = text.count c + 1 := by
  induction text with
  | nil => rw [List.splitOn_nil, List.count_nil, List.length_singleton]
  | cons d text ih =>
      rw [List.splitOn_cons_eq_if_modifyHead]
      by_cases hd : d = c
      · rw [hd, beq_self_eq_true, if_pos rfl, List.length_cons, List.count_cons_self, ih]
      · rw [if_neg (by simpa using hd), List.length_modifyHead, List.count_cons_of_ne hd, ih]

theorem toNat_lineCount {text : List Char} (h : (text.splitOn '\n').length < 0x100000000) :
    (lineCount text).toNat = (text.splitOn '\n').length :=
  UInt32.toNat_ofNat_of_lt' h

/-! ## Ended lines -/

/-- Every line of the text is ended by a line feed. -/
def Ended (text : List Char) : Prop := text = [] ∨ text.getLast? = some '\n'

theorem Ended.append {s t : List Char} (hs : Ended s) (ht : Ended t) : Ended (s ++ t) := by
  rcases ht with rfl | ht
  · rw [List.append_nil]
    exact hs
  · right
    rw [List.getLast?_append, ht]
    rfl

theorem Ended.flatMap {α : Type} {f : α → List Char} {xs : List α} (h : ∀ x ∈ xs, Ended (f x)) :
    Ended (xs.flatMap f) := by
  induction xs with
  | nil => exact Or.inl rfl
  | cons x xs ih =>
      rw [List.flatMap_cons]
      exact (h x List.mem_cons_self).append (ih fun y hy => h y (List.mem_cons_of_mem x hy))

/-- A walk over ended lines ends at the beginning of a line. -/
theorem Ended.column_after {p : Position} {text : List Char} (h : Ended text)
    (hp : p.column = 0) : (p.after text).column = 0 := by
  rcases h with rfl | h
  · exact hp
  · obtain ⟨init, rfl⟩ := List.getLast?_eq_some_iff.mp h
    rw [Position.after_append]
    rfl

/-- A separator divides the pieces before it from the pieces behind it. -/
theorem splitOn_append_cons {α : Type} [BEq α] [LawfulBEq α] (c : α) (s t : List α) :
    (s ++ c :: t).splitOn c = s.splitOn c ++ t.splitOn c := by
  induction s with
  | nil =>
      rw [List.nil_append, List.splitOn_cons_eq_if_modifyHead, beq_self_eq_true, if_pos rfl,
        List.splitOn_nil, List.singleton_append]
  | cons d s ih =>
      rw [List.cons_append, List.splitOn_cons_eq_if_modifyHead, List.splitOn_cons_eq_if_modifyHead,
        ih]
      split
      next => rfl
      next =>
        obtain ⟨piece, rest, hsplit⟩ := List.exists_cons_of_ne_nil (List.splitOn_ne_nil c s)
        rw [hsplit]
        rfl

theorem splitOn_of_not_mem {α : Type} [BEq α] [LawfulBEq α] {c : α} {s : List α} (h : c ∉ s) :
    s.splitOn c = [s] := by
  induction s with
  | nil => rw [List.splitOn_nil]
  | cons d s ih =>
      have hd : (d == c) = false := beq_false_of_ne (fun e => h (e ▸ List.mem_cons_self))
      rw [List.splitOn_cons_eq_if_modifyHead, hd, ih fun hc => h (List.mem_cons_of_mem d hc)]
      rfl

/-- A line is found behind the ended lines before it. -/
theorem getElem?_splitOn_line {before line : List Char} (hbefore : Ended before)
    (hline : '\n' ∉ line) (after : List Char) :
    ((before ++ (line ++ '\n' :: after)).splitOn '\n')[before.count '\n']? = some line := by
  have hrest : (line ++ '\n' :: after).splitOn '\n' = line :: after.splitOn '\n' := by
    rw [splitOn_append_cons, splitOn_of_not_mem hline, List.singleton_append]
  rcases hbefore with rfl | hlast
  · rw [List.nil_append, hrest]
    rfl
  · obtain ⟨init, rfl⟩ := List.getLast?_eq_some_iff.mp hlast
    have hcount : (init ++ ['\n']).count '\n' = (init.splitOn '\n').length := by
      rw [length_splitOn, List.count_append, List.count_singleton_self]
    rw [hcount, List.append_assoc, List.singleton_append, splitOn_append_cons, hrest,
      List.getElem?_append_right (Nat.le_refl _), Nat.sub_self]
    rfl

end TypedStyles
