import TypedStyles.Declaration.Key
import TypedStyles.Proofs.Json.StringLiteral
import TypedStyles.Proofs.Text.SelfDelimiting

/-!
# Keys as string literals

A key is a JSON string literal that stands for its name
(`stringLiteral_escapeAll`).  So no key holds a line feed, whatever its name is.
A key tells its name and where it ends, whatever follows it
(`selfDelimiting_escapeAll`).

`quoted_reads_back` collects what this means for the text of a declaration: a
quoted key is read as its name, it ends at the first quote that is not escaped,
and two names never have one key.
-/

namespace TypedStyles.Key

/-! ## Keys stay on their line -/

/-- A character is written in a key as a piece of a string literal. -/
theorem charLiteral_escape (c : Char) : Json.CharLiteral (escape c) c := by
  fun_cases escape c with
  | case1 h => exact .letter (by simp [h, Json.escapeLetters])
  | case2 _ h => exact .letter (by simp [h, Json.escapeLetters])
  | case3 _ _ h => exact .letter (by simp [h, Json.escapeLetters])
  | case4 _ _ _ h => exact .letter (by simp [h, Json.escapeLetters])
  | case5 _ _ _ _ h => exact .letter (by simp [h, Json.escapeLetters])
  | case6 _ _ _ _ _ hcontrol => exact Json.charLiteral_unicodeEscape hcontrol
  | case7 hquote hbackslash _ _ _ hplain => exact .plain hquote hbackslash (by omega)

theorem stringLiteral_escapeAll (name : String) :
    Json.StringLiteral (escapeAll name).toList name.toList := by
  rw [escapeAll, String.toList_ofList]
  exact Json.stringLiteral_flatMap charLiteral_escape name.toList

theorem lineFeed_not_mem_escapeAll (name : String) : '\n' ∉ (escapeAll name).toList :=
  fun h => absurd ((stringLiteral_escapeAll name).le_toNat '\n' h) (by decide)

/-! ## Keys are read back -/

/-- A key is read as its name. -/
theorem close?_escapeAll (name : String) (t : List Char) :
    Json.StringState.opened.close? ((escapeAll name).toList ++ '"' :: t) = some (some name, t) := by
  rw [(stringLiteral_escapeAll name).close?, String.ofList_toList]

/-- A key with its closing quote tells its name and where it ends. -/
theorem selfDelimiting_escapeAll :
    SelfDelimiting (fun name => (escapeAll name).toList ++ ['"']) (fun name => name) := by
  intro a b s t heq
  dsimp only at heq
  rw [List.append_assoc, List.append_assoc] at heq
  have hread := congrArg Json.StringState.opened.close? heq
  rw [List.singleton_append, List.singleton_append, close?_escapeAll, close?_escapeAll] at hread
  obtain ⟨hname, hrest⟩ := Prod.mk.inj (Option.some.inj hread)
  exact ⟨Option.some.inj hname, hrest⟩

/-- A text that begins with a key and its closing quote begins with no other key. -/
theorem eq_of_escapeAll_append {name other : String} {s t : List Char}
    (h : (escapeAll other).toList ++ '"' :: s = (escapeAll name).toList ++ '"' :: t) :
    other = name ∧ s = t :=
  selfDelimiting_escapeAll (by simpa using h)

theorem escapeAll_inj {name other : String} : escapeAll other = escapeAll name ↔ other = name := by
  constructor
  · intro h
    exact (eq_of_escapeAll_append (s := []) (t := []) (by rw [h])).1
  · rintro rfl
    rfl

/-- **Keys are string literals that can be read back.**  A key is a JSON string literal of its name
and of no other text.  Between quotes it is read as the name.  It holds no control character.
Every quote in it has an odd number of backslashes right before it, so the quote that closes it is
the first one that is not escaped.  Two names have two keys, whatever follows them in a text. -/
theorem quoted_reads_back (name : String) :
    (∀ text, Json.StringLiteral (escapeAll name).toList text ↔ text = name.toList) ∧
      Json.read? ('"' :: ((escapeAll name).toList ++ ['"'])) = some (.text name) ∧
      (∀ c ∈ (escapeAll name).toList, 0x20 ≤ c.toNat) ∧
      (∀ before after, (escapeAll name).toList = before ++ '"' :: after →
        (before.rtakeWhile (· == '\\')).length % 2 = 1) ∧
      (∀ rest before after,
        Json.FirstQuote ((escapeAll name).toList ++ '"' :: rest) before after ↔
          before = (escapeAll name).toList ∧ after = rest) ∧
      (∀ other, escapeAll other = escapeAll name ↔ other = name) ∧
      ∀ other rest rest', other ≠ name →
        (escapeAll other).toList ++ '"' :: rest ≠ (escapeAll name).toList ++ '"' :: rest' := by
  have hliteral := stringLiteral_escapeAll name
  refine ⟨fun text => ?_, ?_, hliteral.le_toNat, fun before after => hliteral.escapesNext_of_quote,
    fun rest before after => ?_, fun other => escapeAll_inj, fun other rest rest' hother h => ?_⟩
  · constructor
    · exact fun h => h.unique hliteral
    · rintro rfl
      exact hliteral
  · have hread := hliteral.read?
    rwa [String.ofList_toList] at hread
  · constructor
    · exact fun h => h.unique (hliteral.firstQuote rest)
    · rintro ⟨rfl, rfl⟩
      exact hliteral.firstQuote after
  · exact hother (eq_of_escapeAll_append h).1

/-- A name that ends in a backslash and looks like an escape itself. -/
theorem quoted_reads_back_backslashes :
    escapeAll "\\\"\\u0001\x01\\" = "\\\\\\\"\\\\u0001\\u0001\\\\" ∧
      Json.read? "\"\\\\\\\"\\\\u0001\\u0001\\\\\"".toList = some (.text "\\\"\\u0001\x01\\") ∧
      (['\\', '\\', '\\'].rtakeWhile (· == '\\')).length % 2 = 1 := by
  have hkey : escapeAll "\\\"\\u0001\x01\\" = "\\\\\\\"\\\\u0001\\u0001\\\\" := by
    decide +kernel
  have hback := quoted_reads_back "\\\"\\u0001\x01\\"
  rw [hkey] at hback
  exact ⟨hkey, hback.2.1, hback.2.2.2.1 _ "\\\\u0001\\u0001\\\\".toList (by decide)⟩

end TypedStyles.Key
