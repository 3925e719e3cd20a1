/-!
# Self-delimiting texts

A writer is self-delimiting if a text that begins with what it wrote tells what
was written and where the rest begins, whatever the rest is.  The view says
which part of what was written the text tells.

Writers in a row are self-delimiting if each is (`SelfDelimiting.seq`).  A list
of items is if every item is and the text that closes the list is no beginning
of an item (`SelfDelimiting.closedList`).  A list may also have a text of its
own for the case that it is empty (`SelfDelimiting.listOrEmpty`).
-/

namespace TypedStyles

/-! ## Clashes -/

/-- No text begins with both. -/
def Clash (s t : List Char) : Prop := ∀ u v, s ++ u ≠ t ++ v

namespace Clash

variable {s t : List Char}

theorem of_ne {c d : Char} (h : c ≠ d) (s t : List Char) : Clash (c :: s) (d :: t) := by
  intro u v heq
  exact h (List.cons.inj heq).1

/-- Texts that clash still do so with a common beginning. -/
theorem append_left (start : List Char) (h : Clash s t) : Clash (start ++ s) (start ++ t) := by
  intro u v heq
  rw [List.append_assoc, List.append_assoc] at heq
  exact h u v (List.append_cancel_left heq)

/-- Texts that clash still do so if the second goes on. -/
theorem append_right (more : List Char) (h : Clash s t) : Clash s (t ++ more) := by
  intro u v heq
  rw [List.append_assoc] at heq
  exact h u (more ++ v) heq

end Clash

/-! ## Self-delimiting writers -/

section

variable {α β γ δ : Type}

/-- From a text that begins with what was written, the view of what was written
and the rest of the text can be told. -/
def SelfDelimiting (write : α → List Char) (view : α → β) : Prop :=
  ∀ ⦃a b : α⦄ ⦃s t : List Char⦄, write a ++ s = write b ++ t → view a = view b ∧ s = t

namespace SelfDelimiting

variable {write : α → List Char} {view : α → β} {write' : α → List Char} {view' : α → γ}

theorem map (h : SelfDelimiting write view) (f : β → δ) :
    SelfDelimiting write fun a => f (view a) := by
  intro a b s t heq
  obtain ⟨hview, hrest⟩ := h heq
  exact ⟨congrArg f hview, hrest⟩

theorem comap (h : SelfDelimiting write view) (f : δ → α) :
    SelfDelimiting (fun d => write (f d)) fun d => view (f d) :=
  fun _ _ _ _ heq => h heq

theorem prepend (start : List Char) (h : SelfDelimiting write view) :
    SelfDelimiting (fun a => start ++ write a) view := by
  intro a b s t heq
  rw [List.append_assoc, List.append_assoc] at heq
  exact h (List.append_cancel_left heq)

theorem append (h : SelfDelimiting write view) (stop : List Char) :
    SelfDelimiting (fun a => write a ++ stop) view := by
  intro a b s t heq
  rw [List.append_assoc, List.append_assoc] at heq
  obtain ⟨hview, hrest⟩ := h heq
  exact ⟨hview, List.append_cancel_left hrest⟩

/-- Two writers in a row tell both views. -/
theorem seq (h : SelfDelimiting write view) (h' : SelfDelimiting write' view') :
    SelfDelimiting (fun a => write a ++ write' a) fun a => (view a, view' a) := by
  intro a b s t heq
  rw [List.append_assoc, List.append_assoc] at heq
  obtain ⟨hview, hrest⟩ := h heq
  obtain ⟨hview', hrest'⟩ := h' hrest
  exact ⟨Prod.ext hview hview', hrest'⟩

/-- Items in a row tell their views if the text that closes them begins no item. -/
theorem closedList (h : SelfDelimiting write view) {stop : List Char}
    (hstop : ∀ a, Clash stop (write a)) :
    SelfDelimiting (fun as => as.flatMap write ++ stop) (List.map view) := by
  intro as
  induction as with
  | nil =>
      intro bs s t heq
      cases bs with
      | nil => exact ⟨rfl, List.append_cancel_left heq⟩
      | cons b bs =>
          simp only [List.flatMap_cons, List.flatMap_nil, List.nil_append, List.append_assoc] at heq
          exact absurd heq (hstop b s _)
  | cons a as ih =>
      intro bs s t heq
      cases bs with
      | nil =>
          simp only [List.flatMap_cons, List.flatMap_nil, List.nil_append, List.append_assoc] at heq
          exact absurd heq.symm (hstop a t _)
      | cons b bs =>
          simp only [List.flatMap_cons, List.append_assoc] at heq
          obtain ⟨hview, heq⟩ := h heq
          rw [← List.append_assoc, ← List.append_assoc] at heq
          obtain ⟨hviews, hrest⟩ := ih heq
          exact ⟨by rw [List.map_cons, List.map_cons, hview, hviews], hrest⟩

/-- A list may have a text of its own for the case that it is empty. -/
theorem listOrEmpty {writeAll : List α → List Char} (h : SelfDelimiting writeAll (List.map view))
    {start none : List Char} (hnone : Clash none start) :
    SelfDelimiting (fun as => if as = [] then none else start ++ writeAll as) (List.map view) := by
  intro as bs s t heq
  dsimp only at heq
  by_cases has : as = []
  · by_cases hbs : bs = []
    · rw [has, hbs] at heq ⊢
      exact ⟨rfl, List.append_cancel_left heq⟩
    · rw [if_pos has, if_neg hbs] at heq
      exact absurd heq (hnone.append_right _ s t)
  · by_cases hbs : bs = []
    · rw [if_neg has, if_pos hbs] at heq
      exact absurd heq.symm (hnone.append_right _ t s)
    · rw [if_neg has, if_neg hbs] at heq
      exact h.prepend start heq

end SelfDelimiting

end

end TypedStyles
