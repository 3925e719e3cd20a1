import TypedStyles.Json.Printer
import TypedStyles.Json.Reader
import TypedStyles.Proofs.Json.Strings

/-!
# Reading what was written

`Reading.value?` is the value that a reading gives once it has read the rest of
the text.  Every lemma on reading says that one reading with one text gives the
same value as a later reading with what is left of the text.

A string and a key are held until their quote closes, whatever is inside
(`Reading.value?_quote`, `Reading.value?_key`).
-/

namespace TypedStyles.Json

namespace Reading

/-! ## The rest of a text -/

/-- The value that a reading gives once it has read the rest of the text. -/
def value? (r : Reading) (text : List Char) : Option Json := (r.run? text).bind finish?

theorem value?_cons {r next : Reading} {c : Char} (h : r.step? c = some next) (t : List Char) :
    r.value? (c :: t) = next.value? t := by
  rw [value?, value?, run?, h]

theorem value?_congr {r r' : Reading} {c : Char} (h : r.step? c = r'.step? c) (t : List Char) :
    r.value? (c :: t) = r'.value? (c :: t) := by
  rw [value?, value?, run?, run?, h]

/-- Nothing follows, or a character that separates or closes. -/
def Ends : List Char → Prop
  | [] => True
  | c :: _ => c = ',' ∨ c = ']' ∨ c = '\x7d'

theorem step?_deliver (v : Json) (frames : List Frame) (c : Char) :
    (deliver v frames).step? c = (deliver v frames).between? c := by
  cases frames with
  | nil => rfl
  | cons frame frames =>
      cases frame with
      | array items => rfl
      | object members key => rfl

end Reading

/-! ## Quotes -/

/-- A character is written as a piece of a string literal. -/
theorem charLiteral_escape (c : Char) : CharLiteral (escape c) c := by
  fun_cases escape c with
  | case1 h => exact .letter (by simp [h, escapeLetters])
  | case2 _ h => exact .letter (by simp [h, escapeLetters])
  | case3 _ _ h => exact .letter (by simp [h, escapeLetters])
  | case4 _ _ _ h => exact .letter (by simp [h, escapeLetters])
  | case5 _ _ _ _ h => exact .letter (by simp [h, escapeLetters])
  | case6 _ _ _ _ _ h => exact .letter (by simp [h, escapeLetters])
  | case7 _ _ _ _ _ _ h => exact .letter (by simp [h, escapeLetters])
  | case8 _ _ _ _ _ _ _ hcontrol => exact charLiteral_unicodeEscape hcontrol
  | case9 hquote hbackslash _ _ _ _ _ hplain => exact .plain hquote hbackslash (by omega)

/-- A string is read from its opening quote to its closing one, also if it has no text. -/
theorem exists_quote_eq (s : Option String) :
    ∃ inside, quote s = '"' :: inside ∧
      ∀ t, StringState.opened.close? (inside ++ t) = some (s, t) := by
  cases s with
  | none => exact ⟨unicodeEscape 0xD800 ++ ['"'], rfl, fun t => rfl⟩
  | some s =>
      refine ⟨s.toList.flatMap escape ++ ['"'], rfl, fun t => ?_⟩
      have hread := (stringLiteral_flatMap charLiteral_escape s.toList).close? t
      rw [String.ofList_toList] at hread
      rw [List.append_assoc]
      exact hread

namespace Reading

variable {frames : List Frame} {t : List Char}

/-- A reading that holds a string goes on to where the string closes. -/
theorem value?_of_close? (hold : StringState → Reading) (close : Option String → Reading)
    (hstep : ∀ s c, (hold s).step? c =
      match s.step c with
      | .more s => some (hold s)
      | .closed text => some (close text)
      | .refused => none)
    {s : StringState} {text rest : List Char} {content : Option String}
    (h : s.close? text = some (content, rest)) :
    (hold s).value? text = (close content).value? rest := by
  induction text generalizing s with
  | nil => cases h
  | cons c text ih =>
      have hc := hstep s c
      rw [StringState.close?] at h
      split at h
      next next hnext =>
        rw [hnext] at hc
        rw [value?_cons hc, ih h]
      next content hclosed =>
        rw [hclosed] at hc
        obtain ⟨rfl, rfl⟩ := Prod.mk.inj (Option.some.inj h)
        exact value?_cons hc text
      next => cases h

theorem value?_quote (s : Option String) :
    (⟨frames, .value⟩ : Reading).value? (quote s ++ t) = (deliver (.string s) frames).value? t := by
  obtain ⟨inside, hquote, hclose⟩ := exists_quote_eq s
  have hopen : (⟨frames, .value⟩ : Reading).step? '"' = some ⟨frames, .string .opened⟩ := rfl
  rw [hquote, List.cons_append, value?_cons hopen]
  exact value?_of_close? (fun s => ⟨frames, .string s⟩) (fun s => deliver (.string s) frames)
    (fun _ _ => rfl) (hclose t)

/-- A key is read with its colon, and a value must begin. -/
theorem value?_key {r : Reading} {before : List (Option String × Json)} (key : Option String)
    (h : r.step? '"' = some ⟨frames, .key before .opened⟩) :
    r.value? (quote key ++ ':' :: t)
      = (⟨.object before key :: frames, .value⟩ : Reading).value? t := by
  obtain ⟨inside, hquote, hclose⟩ := exists_quote_eq key
  have hcolon : (⟨frames, .objectColon before key⟩ : Reading).step? ':'
      = some ⟨.object before key :: frames, .value⟩ := rfl
  rw [hquote, List.cons_append, value?_cons h, ← value?_cons hcolon]
  exact value?_of_close? (fun s => ⟨frames, .key before s⟩)
    (fun key => ⟨frames, .objectColon before key⟩) (fun _ _ => rfl) (hclose _)

end Reading

end TypedStyles.Json
