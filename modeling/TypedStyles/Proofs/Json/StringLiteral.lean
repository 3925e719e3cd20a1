import Mathlib.Data.List.DropRight
import TypedStyles.Proofs.Json.Reading

/-!
# Where a string literal ends

No control character stands in a string literal.  A quote in it is always
escaped: the backslashes right before it are odd in number
(`StringLiteral.escapesNext_of_quote`).  The backslashes at its end are even in
number, so the closing quote is not escaped.  It is the first quote that is not
(`StringLiteral.firstQuote`), and there is only one first quote
(`FirstQuote.unique`).

A string literal between its quotes is read as a whole JSON text
(`StringLiteral.read?`).
-/

namespace TypedStyles.Json

/-! ## Backslashes before a character -/

/-- What comes behind a text is escaped: the backslashes at the end are odd in number. -/
def EscapesNext (text : List Char) : Prop := (text.rtakeWhile (· == '\\')).length % 2 = 1

theorem not_escapesNext_nil : ¬ EscapesNext [] := by
  simp [EscapesNext]

theorem escapesNext_concat_backslash (s : List Char) :
    EscapesNext (s ++ ['\\']) ↔ ¬ EscapesNext s := by
  rw [EscapesNext, EscapesNext, List.rtakeWhile_concat_pos _ _ _ (by simp), List.length_append,
    List.length_singleton]
  omega

theorem escapesNext_backslash : EscapesNext ['\\'] :=
  (escapesNext_concat_backslash []).mpr not_escapesNext_nil

theorem not_escapesNext_concat {c : Char} (h : c ≠ '\\') (s : List Char) :
    ¬ EscapesNext (s ++ [c]) := by
  rw [EscapesNext, List.rtakeWhile_concat_neg _ _ _ (by simpa using h)]
  simp

/-- A text that escapes nothing behind it does not matter for what is escaped later on. -/
theorem escapesNext_append {s : List Char} (hs : ¬ EscapesNext s) (t : List Char) :
    EscapesNext (s ++ t) ↔ EscapesNext t := by
  induction t using List.reverseRecOn with
  | nil => simp [hs, not_escapesNext_nil]
  | append_singleton t c ih =>
      rw [← List.append_assoc]
      by_cases hc : c = '\\'
      · rw [hc, escapesNext_concat_backslash, escapesNext_concat_backslash, ih]
      · have hleft := not_escapesNext_concat hc (s ++ t)
        have hright := not_escapesNext_concat hc t
        exact iff_of_false hleft hright

/-! ## Pieces of a string literal -/

theorem hexValue?_bounds {c : Char} {i : Nat} (h : hexValue? c = some i) :
    0x30 ≤ c.toNat ∧ c ≠ '\\' := by
  constructor
  · have hle : ∀ d : Char, d ≤ c → d.toNat ≤ c.toNat := fun d hd => hd
    rw [hexValue?] at h
    split at h
    next hc => exact hle '0' hc.1
    next =>
      split at h
      next hc => exact Nat.le_trans (by decide) (hle 'a' hc.1)
      next =>
        split at h
        next hc => exact Nat.le_trans (by decide) (hle 'A' hc.1)
        next => cases h
  · rintro rfl
    cases h

theorem toNat_of_escapeLetters {letter c : Char} (h : (letter, c) ∈ escapeLetters) :
    0x20 ≤ letter.toNat := by
  have hall : ∀ p ∈ escapeLetters, 0x20 ≤ p.1.toNat := by
    simp [escapeLetters]
  exact hall (letter, c) h

section

variable {piece : List Char}

/-- An escape by code unit holds neither a control character nor a quote. -/
theorem UnitEscape.of_mem {unit : Nat} (h : UnitEscape piece unit) {e : Char} (he : e ∈ piece) :
    0x20 ≤ e.toNat ∧ e ≠ '"' := by
  have hdigit : ∀ {d : Char} {i : Nat}, hexValue? d = some i → 0x20 ≤ d.toNat ∧ d ≠ '"' := by
    intro d i hd
    have hbounds := hexValue?_bounds hd
    refine ⟨by omega, ?_⟩
    rintro rfl
    cases hd
  cases h with
  | digits ha hb hc hd =>
      simp only [List.mem_cons, List.not_mem_nil, or_false] at he
      rcases he with rfl | rfl | rfl | rfl | rfl | rfl
      · simp
      · simp
      · exact hdigit ha
      · exact hdigit hb
      · exact hdigit hc
      · exact hdigit hd

theorem UnitEscape.not_escapesNext_append {unit : Nat} (h : UnitEscape piece unit)
    (s : List Char) : ¬ EscapesNext (s ++ piece) := by
  cases h with
  | @digits a b c d _ _ _ _ _ _ _ hd =>
      have hlast : s ++ ['\\', 'u', a, b, c, d] = s ++ ['\\', 'u', a, b, c] ++ [d] := by simp
      rw [hlast]
      exact not_escapesNext_concat (hexValue?_bounds hd).2 _

/-- No control character stands in a piece of a string literal. -/
theorem CharLiteral.le_toNat {c : Char} (h : CharLiteral piece c) :
    ∀ d ∈ piece, 0x20 ≤ d.toNat := by
  cases h with
  | plain _ _ hcontrol => simpa using hcontrol
  | letter h => simpa using toNat_of_escapeLetters h
  | unit h => exact fun d hd => (h.of_mem hd).1
  | pair h _ h' _ =>
      intro d hd
      cases List.mem_append.mp hd with
      | inl hd => exact (h.of_mem hd).1
      | inr hd => exact (h'.of_mem hd).1

/-- A piece of a string literal escapes nothing behind it. -/
theorem CharLiteral.not_escapesNext {c : Char} (h : CharLiteral piece c) :
    ¬ EscapesNext piece := by
  cases h with
  | plain _ hbackslash => exact not_escapesNext_concat hbackslash []
  | @letter letter c h =>
      by_cases hletter : letter = '\\'
      · rw [hletter]
        exact fun htwo => (escapesNext_concat_backslash ['\\']).mp htwo escapesNext_backslash
      · exact not_escapesNext_concat hletter ['\\']
  | unit h => exact h.not_escapesNext_append []
  | pair _ _ h' _ => exact h'.not_escapesNext_append _

/-- A quote in a piece of a string literal is escaped. -/
theorem CharLiteral.escapesNext_of_quote {c : Char} (h : CharLiteral piece c)
    {before after : List Char} (hsplit : piece = before ++ '"' :: after) :
    EscapesNext before := by
  have hmem : '"' ∈ piece := by simp [hsplit]
  cases h with
  | plain hquote => exact absurd (List.mem_singleton.mp hmem).symm hquote
  | letter h =>
      cases before with
      | nil => cases hsplit
      | cons b before =>
          obtain ⟨rfl, hrest⟩ := List.cons.inj hsplit
          cases before with
          | nil => exact escapesNext_backslash
          | cons b' before => simp at hrest
  | unit h => exact absurd rfl (h.of_mem hmem).2
  | pair h _ h' _ =>
      cases List.mem_append.mp hmem with
      | inl hmem => exact absurd rfl (h.of_mem hmem).2
      | inr hmem => exact absurd rfl (h'.of_mem hmem).2

end

/-! ## String literals -/

section

variable {inside text : List Char}

/-- No control character stands in a string literal. -/
theorem StringLiteral.le_toNat (h : StringLiteral inside text) :
    ∀ d ∈ inside, 0x20 ≤ d.toNat := by
  induction h with
  | nil => simp
  | cons hpiece _ ih =>
      intro d hd
      cases List.mem_append.mp hd with
      | inl hd => exact hpiece.le_toNat d hd
      | inr hd => exact ih d hd

/-- The quote that closes a string literal is not escaped. -/
theorem StringLiteral.not_escapesNext (h : StringLiteral inside text) : ¬ EscapesNext inside := by
  induction h with
  | nil => exact not_escapesNext_nil
  | cons hpiece _ ih => rwa [escapesNext_append hpiece.not_escapesNext]

/-- A string literal stands for one text. -/
theorem StringLiteral.unique {text' : List Char} (h : StringLiteral inside text)
    (h' : StringLiteral inside text') : text = text' := by
  have hread := (h.close? []).symm.trans (h'.close? [])
  have htext := Option.some.inj (Prod.mk.inj (Option.some.inj hread)).1
  have hlist := congrArg String.toList htext
  rwa [String.toList_ofList, String.toList_ofList] at hlist

/-- Every quote in a string literal is escaped. -/
theorem StringLiteral.escapesNext_of_quote (h : StringLiteral inside text)
    {before after : List Char} (hsplit : inside = before ++ '"' :: after) :
    EscapesNext before := by
  induction h generalizing before with
  | nil => simp at hsplit
  | @cons piece inside text c hpiece hinside ih =>
      rcases List.append_eq_append_iff.mp hsplit with ⟨rest, rfl, hrest⟩ | ⟨rest, hpiece', hrest⟩
      · exact (escapesNext_append hpiece.not_escapesNext rest).mpr (ih hrest)
      · cases rest with
        | nil =>
            -- The quote would begin what is left of the literal, where nothing escapes it.
            have hnil : EscapesNext [] := ih hrest.symm
            exact absurd hnil not_escapesNext_nil
        | cons d rest =>
            obtain ⟨rfl, -⟩ := List.cons.inj hrest
            exact hpiece.escapesNext_of_quote hpiece'

end

/-! ## The first quote -/

/-- The first quote of a text that is not escaped stands between two parts of it. -/
structure FirstQuote (text before after : List Char) : Prop where
  eq_append : text = before ++ '"' :: after
  unescaped : ¬ EscapesNext before
  escaped : ∀ s t, before = s ++ '"' :: t → EscapesNext s

theorem FirstQuote.eq_nil_of_append {text before rest after after' : List Char}
    (h : FirstQuote text before after) (h' : FirstQuote text (before ++ rest) after') :
    rest = [] := by
  have heq := h.eq_append.symm.trans h'.eq_append
  rw [List.append_assoc] at heq
  cases rest with
  | nil => rfl
  | cons d rest =>
      -- Then the quote that is not escaped would stand in the longer part.
      obtain ⟨rfl, -⟩ := List.cons.inj (List.append_cancel_left heq)
      exact absurd (h'.escaped before rest rfl) h.unescaped

/-- A text has no more than one first quote. -/
theorem FirstQuote.unique {text before after before' after' : List Char}
    (h : FirstQuote text before after) (h' : FirstQuote text before' after') :
    before = before' ∧ after = after' := by
  have heq := h.eq_append.symm.trans h'.eq_append
  have hbefore : before = before' := by
    rcases List.append_eq_append_iff.mp heq with ⟨rest, rfl, -⟩ | ⟨rest, rfl, -⟩
    · rw [h.eq_nil_of_append h', List.append_nil]
    · rw [h'.eq_nil_of_append h, List.append_nil]
  rw [hbefore] at heq
  exact ⟨hbefore, (List.cons.inj (List.append_cancel_left heq)).2⟩

/-- A string literal ends at the first quote that is not escaped. -/
theorem StringLiteral.firstQuote {inside text : List Char} (h : StringLiteral inside text)
    (rest : List Char) : FirstQuote (inside ++ '"' :: rest) inside rest where
  eq_append := rfl
  unescaped := h.not_escapesNext
  escaped _ _ hsplit := h.escapesNext_of_quote hsplit

/-! ## Whole texts -/

/-- A string literal between its quotes is a JSON text, and its value is what it stands for. -/
theorem StringLiteral.read? {inside text : List Char} (h : StringLiteral inside text) :
    Json.read? ('"' :: (inside ++ ['"'])) = some (.text (String.ofList text)) := by
  have hopen : Reading.start.step? '"' = some ⟨[], .string .opened⟩ := rfl
  have hclose := Reading.value?_of_close? (fun s => ⟨[], .string s⟩)
    (fun s => Reading.deliver (.string s) []) (fun _ _ => rfl) (h.close? [])
  have hread : Json.read? ('"' :: (inside ++ ['"']))
      = Reading.start.value? ('"' :: (inside ++ ['"'])) := rfl
  rw [hread, Reading.value?_cons hopen, hclose]
  rfl

end TypedStyles.Json
