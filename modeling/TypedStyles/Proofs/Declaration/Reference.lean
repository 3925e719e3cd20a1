import TypedStyles.Proofs.Declaration.Delivery

/-!
# The reference to a source map

A declaration may be followed by a reference to its source map.  The reference
is written as a comment behind the last line of the declaration, and a comment
ends where its line ends.  The address in it is written as it is given.  So the
reference is one line exactly if its address holds no line break
(`oneMoreLine_iff`).  The comment refers to what the address holds before its
first line break (`inComment_referenceLine`), and the rest stands outside the
comment (`behindComment_referenceLine`).

An address that holds the whole map has no line break
(`Document.not_isLineBreak_address`).  The name of a file may have one.
-/

namespace TypedStyles

/-! ## Lines and comments -/

/-- The character ends a line, and a comment on that line. -/
def IsLineBreak (c : Char) : Prop := c = '\n' ∨ c = '\r' ∨ c = '\u2028' ∨ c = '\u2029'

instance : DecidablePred IsLineBreak :=
  fun _ => inferInstanceAs (Decidable (_ ∨ _ ∨ _ ∨ _))

/-- What of a text stands outside the comment that it begins with. -/
def behindComment (text : List Char) : List Char := text.dropWhile fun c => ¬ IsLineBreak c

/-- What of a text stands in the comment that it begins with. -/
def inComment (text : List Char) : List Char := text.takeWhile fun c => ¬ IsLineBreak c

/-- A text is made longer by one line, which is a comment that refers to a source map. -/
structure OneMoreLine (text longer line : List Char) : Prop where
  /-- The text ends its last line, so that the added line begins behind it. -/
  ended : text.getLast? = some '\n'
  eq_append : longer = text ++ (line ++ ['\n'])
  comment : "//# sourceMappingURL=".toList <+: line
  /-- The line feed behind the line is the only line break that is added. -/
  unbroken : ∀ c ∈ line, ¬ IsLineBreak c

theorem not_isLineBreak_of_all {text : List Char}
    (h : (text.all fun c => ¬ IsLineBreak c) = true) : ∀ c ∈ text, ¬ IsLineBreak c := by
  simpa using h

theorem not_isLineBreak_comment : ∀ c ∈ "//# sourceMappingURL=".toList, ¬ IsLineBreak c :=
  not_isLineBreak_of_all (by decide +kernel)

theorem toList_referenceLine (address : String) :
    (Output.referenceLine address).toList
      = "//# sourceMappingURL=".toList ++ (address.toList ++ ['\n']) := by
  have hline : Output.referenceLine address = "//# sourceMappingURL=" ++ address ++ "\n" := rfl
  simp [hline]

theorem behindComment_append {s : List Char} (h : ∀ c ∈ s, ¬ IsLineBreak c) (t : List Char) :
    behindComment (s ++ t) = behindComment t := by
  rw [behindComment, List.dropWhile_append_of_pos (by simpa using h)]
  rfl

theorem behindComment_eq_nil_iff {text : List Char} :
    behindComment text = [] ↔ ∀ c ∈ text, ¬ IsLineBreak c := by
  simp [behindComment, List.dropWhile_eq_nil_iff]

/-- What the address holds from its first line break on stands outside the comment, and so does
the line feed that ends the reference. -/
theorem behindComment_referenceLine (address : String) :
    behindComment (Output.referenceLine address).toList
      = behindComment address.toList ++ ['\n'] := by
  rw [toList_referenceLine, behindComment_append not_isLineBreak_comment, behindComment,
    List.dropWhile_append]
  split
  next h =>
    have hnil : behindComment address.toList = [] := List.isEmpty_iff.mp h
    rw [hnil]
    rfl
  next => rfl

theorem inComment_eq_self_iff {text : List Char} :
    inComment text = text ↔ ∀ c ∈ text, ¬ IsLineBreak c := by
  simp [inComment, List.takeWhile_eq_self_iff]

/-- The comment refers to the address up to its first line break. -/
theorem inComment_referenceLine (address : String) :
    inComment (Output.referenceLine address).toList
      = "//# sourceMappingURL=".toList ++ inComment address.toList := by
  have hcomment : ∀ c ∈ "//# sourceMappingURL=".toList, decide (¬ IsLineBreak c) = true := by
    simpa using not_isLineBreak_comment
  have hend : List.takeWhile (fun c => decide (¬ IsLineBreak c)) ['\n'] = [] := rfl
  rw [toList_referenceLine, inComment, inComment, List.takeWhile_append_of_pos hcomment,
    List.takeWhile_append]
  split
  next h => rw [hend, List.append_nil, (List.takeWhile_prefix _).eq_of_length h]
  next => rfl

/-- A reference is one more line if its address has no line break. -/
theorem oneMoreLine_referenceLine {text : List Char} (hended : text.getLast? = some '\n')
    {address : String} (h : ∀ c ∈ address.toList, ¬ IsLineBreak c) :
    OneMoreLine text (text ++ (Output.referenceLine address).toList)
      ("//# sourceMappingURL=".toList ++ address.toList) where
  ended := hended
  eq_append := by rw [toList_referenceLine, List.append_assoc]
  comment := List.prefix_append _ _
  unbroken c hc := by
    cases List.mem_append.mp hc with
    | inl hc => exact not_isLineBreak_comment c hc
    | inr hc => exact h c hc

/-- A reference is one more line only if its address has no line break. -/
theorem oneMoreLine_iff {text : List Char} (hended : text.getLast? = some '\n')
    (address : String) :
    (∃ line, OneMoreLine text (text ++ (Output.referenceLine address).toList) line) ↔
      ∀ c ∈ address.toList, ¬ IsLineBreak c := by
  constructor
  · rintro ⟨line, h⟩ c hc
    have hreference := List.append_cancel_left h.eq_append
    rw [toList_referenceLine, ← List.append_assoc] at hreference
    have hline := List.append_cancel_right hreference
    apply h.unbroken c
    rw [← hline]
    exact List.mem_append_right _ hc
  · exact fun h => ⟨_, oneMoreLine_referenceLine hended h⟩

/-! ## Addresses -/

/-- The address of a document is one word of a line. -/
theorem Document.not_isLineBreak_address (doc : Document) :
    ∀ c ∈ doc.address.toList, ¬ IsLineBreak c := by
  have hhead : ∀ c ∈ Document.addressHead.toList, ¬ IsLineBreak c :=
    not_isLineBreak_of_all (by decide +kernel)
  have hdigit : ∀ c ∈ Base64.alphabet, ¬ IsLineBreak c :=
    not_isLineBreak_of_all (by decide +kernel)
  intro c hc
  rw [Document.address, String.toList_append, String.toList_ofList] at hc
  cases List.mem_append.mp hc with
  | inl hc => exact hhead c hc
  | inr hc =>
      cases (Base64.padded_encode _).mem c hc with
      | inl hc => exact hdigit c hc
      | inr hc => simp [hc, IsLineBreak]

/-! ## References -/

/-- Every line of a declaration is ended. -/
theorem Metadata.getLast?_emit_text (m : Metadata) (source : String) (recording : Recording) :
    (m.emit source recording).text.toList.getLast? = some '\n' := by
  have hlast : runtimeDeclarations.toList.getLast? = some '\n' :=
    Piece.getLast?_append_of_some rfl
  rw [toList_emit_text, pieces, ← List.cons_append, List.flatMap_append, List.flatMap_singleton,
    List.getLast?_append, Piece.text, hlast]
  rfl

theorem Output.toList_referencedText {out : Output} {address : String}
    (h : out.mapAddress? = some address) :
    out.referencedText.toList = out.declaration.toList ++ (referenceLine address).toList := by
  rw [referencedText, h, String.toList_append]

namespace Metadata

section Generated

variable {m : Metadata} {o : Options} {out : Output}

theorem getLast?_declaration (h : m.generate o = .ok out) :
    out.declaration.toList.getLast? = some '\n' := by
  rw [declaration_generate h, getLast?_emit_text]

theorem mapAddress?_inline (h : m.generate o = .ok out) (hdelivery : o.delivery = .inline) :
    out.mapAddress? = some out.sourceMap.address := by
  rw [Output.mapAddress?, delivery_generate h, hdelivery]

theorem mapAddress?_sibling (h : m.generate o = .ok out) {file : String}
    (hdelivery : o.delivery = .sibling file) : out.mapAddress? = some file := by
  rw [Output.mapAddress?, delivery_generate h, hdelivery]

/-- The name of a file leaves one more line only if it has no line break. -/
theorem oneMoreLine_sibling_iff (h : m.generate o = .ok out) {file : String}
    (hdelivery : o.delivery = .sibling file) :
    (∃ line, OneMoreLine out.declaration.toList out.referencedText.toList line) ↔
      ∀ c ∈ file.toList, ¬ IsLineBreak c := by
  rw [Output.toList_referencedText (mapAddress?_sibling h hdelivery)]
  exact oneMoreLine_iff (getLast?_declaration h) file

end Generated

/-- **The reference to a source map.**  A declaration may stand without a reference.  A reference
that holds the map is one more line, and only the end of this line is outside the comment.  A
reference to a file is written with the name as it is.  It is one more line exactly if the name
has no line break, and else the comment ends at the first line break of the name. -/
theorem referencedText_generate {m : Metadata} {o : Options} {out : Output}
    (h : m.generate o = .ok out) :
    (o.delivery = .none → out.referencedText = out.declaration) ∧
      (o.delivery = .inline →
        OneMoreLine out.declaration.toList out.referencedText.toList
            ("//# sourceMappingURL=".toList ++ out.sourceMap.address.toList) ∧
          behindComment (Output.referenceLine out.sourceMap.address).toList = ['\n']) ∧
      ∀ file, o.delivery = .sibling file →
        out.referencedText = out.declaration ++ "//# sourceMappingURL=" ++ file ++ "\n" ∧
          ((∃ line, OneMoreLine out.declaration.toList out.referencedText.toList line) ↔
            ∀ c ∈ file.toList, ¬ IsLineBreak c) ∧
          behindComment (Output.referenceLine file).toList
            = behindComment file.toList ++ ['\n'] := by
  refine ⟨fun hnone => ?_, fun hinline => ⟨?_, ?_⟩, fun file hfile => ⟨?_, ?_, ?_⟩⟩
  · rw [Output.referencedText, Output.mapAddress?, delivery_generate h, hnone]
  · rw [Output.toList_referencedText (mapAddress?_inline h hinline)]
    exact oneMoreLine_referenceLine (getLast?_declaration h)
      out.sourceMap.not_isLineBreak_address
  · rw [behindComment_referenceLine,
      behindComment_eq_nil_iff.mpr out.sourceMap.not_isLineBreak_address, List.nil_append]
  · exact Output.referencedText_of_address (mapAddress?_sibling h hfile)
  · exact oneMoreLine_sibling_iff h hfile
  · exact behindComment_referenceLine file

theorem exists_generate_placedClass (delivery : MapDelivery) :
    ∃ out, placedClass.generate ⟨"a.css", .firstWins, delivery⟩ = .ok out := by
  have hmappings : placedClass.mappings "a.css" = [mappingAt 6 5 2 1 "a.css"] := by
    decide +kernel
  exact exists_generate hmappings (by decide) (by decide +kernel)

theorem referencedText_generate_placed :
    (∃ out, placedClass.generate ⟨"a.css", .firstWins, .inline⟩ = .ok out ∧
        behindComment (Output.referenceLine out.sourceMap.address).toList = ['\n']) ∧
      ∃ out, placedClass.generate ⟨"a.css", .firstWins, .sibling "a b.map"⟩ = .ok out ∧
        ∃ line, OneMoreLine out.declaration.toList out.referencedText.toList line := by
  obtain ⟨inline, hinline⟩ := exists_generate_placedClass .inline
  obtain ⟨sibling, hsibling⟩ := exists_generate_placedClass (.sibling "a b.map")
  refine ⟨⟨inline, hinline, ((referencedText_generate hinline).2.1 rfl).2⟩, sibling, hsibling, ?_⟩
  have hname : ∀ c ∈ "a b.map".toList, ¬ IsLineBreak c :=
    not_isLineBreak_of_all (by decide +kernel)
  exact ((referencedText_generate hsibling).2.2 "a b.map" rfl).2.1.mpr hname

/-- The rest of a file name behind a line feed is no part of the comment. -/
theorem referencedText_broken_name :
    ∃ out, placedClass.generate ⟨"a.css", .firstWins, .sibling "a\nb.map"⟩ = .ok out ∧
      (¬ ∃ line, OneMoreLine out.declaration.toList out.referencedText.toList line) ∧
      out.referencedText = out.declaration ++ "//# sourceMappingURL=" ++ "a\nb.map" ++ "\n" ∧
      behindComment (Output.referenceLine "a\nb.map").toList = "\nb.map\n".toList := by
  obtain ⟨out, hout⟩ := exists_generate_placedClass (.sibling "a\nb.map")
  refine ⟨out, hout, ?_, Output.referencedText_of_address (mapAddress?_sibling hout rfl), ?_⟩
  · rw [oneMoreLine_sibling_iff hout rfl]
    exact fun h => h '\n' (by decide) (Or.inl rfl)
  · rw [behindComment_referenceLine]
    decide +kernel

end Metadata

end TypedStyles
