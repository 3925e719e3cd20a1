import TypedStyles.Proofs.Json.Numbers

/-!
# Reading undoes writing

The text of a value is read as the value again (`read?_print`).

A value may stand inside open containers, and something may follow it.  So the
induction says of every value that its text, whatever follows it, brings the
reading to where the value is delivered (`ReadsBack`).  The items of an array
and the members of an object are read in turn, those before being kept by the
reading.
-/

namespace TypedStyles.Json

/-- In every number of the value the plain spelling leaves no power of ten out. -/
inductive Spelled : Json → Prop where
  | null : Spelled .null
  | bool (b : Bool) : Spelled (.bool b)
  | number {n : Number} (h : n.Spelled) : Spelled (.number n)
  | string (s : Option String) : Spelled (.string s)
  | array {items : List Json} (h : ∀ j ∈ items, Spelled j) : Spelled (.array items)
  | object {members : List (Option String × Json)} (h : ∀ m ∈ members, Spelled m.2) :
      Spelled (.object members)

/-- The text of the value is read as the value, whatever containers are open and whatever follows
it. -/
def ReadsBack (j : Json) : Prop :=
  ∀ (frames : List Frame) (t : List Char), Reading.Ends t →
    (⟨frames, .value⟩ : Reading).value? (j.print ++ t) = (Reading.deliver j frames).value? t

/-! ## Texts of containers -/

theorem printItems_eq_map (js : List Json) : printItems js = js.map print := by
  induction js with
  | nil => rfl
  | cons j js ih => rw [printItems, ih, List.map_cons]

theorem printMembers_eq_map (ms : List (Option String × Json)) :
    printMembers ms = ms.map printMember := by
  induction ms with
  | nil => rfl
  | cons m ms ih =>
      rw [printMembers, ih, List.map_cons]

theorem intercalate_cons (separator : Char) (s : List Char) (ss : List (List Char)) :
    [separator].intercalate (s :: ss) = s ++ ss.flatMap (separator :: ·) := by
  induction ss generalizing s with
  | nil => simp
  | cons next ss ih =>
      rw [List.intercalate_cons_cons, ih]
      simp

/-- A value begins with a character that is no space and closes nothing. -/
theorem exists_print_eq (j : Json) :
    ∃ c cs, j.print = c :: cs ∧ Reading.isSpace c = false ∧ c ≠ ']' := by
  cases j with
  | null => exact ⟨'n', _, rfl, rfl, by decide⟩
  | bool b =>
      cases b with
      | false => exact ⟨'f', _, rfl, rfl, by decide⟩
      | true => exact ⟨'t', _, rfl, rfl, by decide⟩
  | number n =>
      obtain ⟨negative, m, e, plain⟩ := n
      cases negative with
      | true => exact ⟨'-', _, rfl, rfl, by decide⟩
      | false =>
          obtain ⟨rest, hrest⟩ : ∃ rest, (number ⟨false, m, e, plain⟩).print = decimal m ++ rest :=
            ⟨_, rfl⟩
          obtain ⟨c, cs, hdecimal⟩ :=
            List.exists_cons_of_ne_nil (Nat.toDigits_ne_nil : Nat.toDigits 10 m ≠ [])
          have hdigit : c.isDigit = true :=
            Nat.isDigit_of_mem_toDigits (by decide) (by decide) (hdecimal ▸ List.mem_cons_self)
          obtain ⟨opened, hopened⟩ := NumberState.exists_opened?_of_isDigit hdigit
          refine ⟨c, cs ++ rest, ?_, NumberState.isSpace_of_opened? hopened,
            NumberState.ne_of_opened? hopened rfl⟩
          rw [hrest, decimal, hdecimal, List.cons_append]
  | string s =>
      obtain ⟨inside, hquote, -⟩ := exists_quote_eq s
      exact ⟨'"', inside, hquote, rfl, by decide⟩
  | array items => exact ⟨'[', _, rfl, rfl, by decide⟩
  | object members => exact ⟨'\x7b', _, rfl, rfl, by decide⟩

/-! ## Containers are read in turn -/

section Containers

variable {frames : List Frame} {t : List Char}

open Reading (Ends deliver value?_cons value?_congr value?_key)

theorem ends_flatMap (ss : List (List Char)) (h : Ends t) : Ends (ss.flatMap (',' :: ·) ++ t) := by
  cases ss with
  | nil => exact h
  | cons s ss => exact Or.inl rfl

/-- The items of an array behind the first one are read in turn. -/
theorem value?_items {items : List Json} (h : ∀ j ∈ items, ReadsBack j) (before : List Json) :
    (⟨frames, .arrayNext before⟩ : Reading).value?
        ((items.map print).flatMap (',' :: ·) ++ ']' :: t)
      = (deliver (.array (before.reverse ++ items)) frames).value? t := by
  induction items generalizing before with
  | nil =>
      have hclose : (⟨frames, .arrayNext before⟩ : Reading).step? ']'
          = some (deliver (.array before.reverse) frames) := rfl
      rw [List.append_nil]
      exact value?_cons hclose t
  | cons j items ih =>
      have hnext : (⟨frames, .arrayNext before⟩ : Reading).step? ','
          = some ⟨.array before :: frames, .value⟩ := rfl
      have hj := h j List.mem_cons_self (.array before :: frames) _
        (ends_flatMap (t := ']' :: t) (items.map print) (Or.inr (Or.inl rfl)))
      have hitems := ih (fun k hk => h k (List.mem_cons_of_mem j hk)) (j :: before)
      rw [List.reverse_cons, List.append_assoc] at hitems
      rw [List.map_cons, List.flatMap_cons, List.cons_append, List.cons_append, value?_cons hnext,
        List.append_assoc, hj]
      exact hitems

theorem readsBack_array {items : List Json} (h : ∀ j ∈ items, ReadsBack j) :
    ReadsBack (.array items) := by
  intro frames t _
  have hopen : (⟨frames, .value⟩ : Reading).step? '[' = some ⟨frames, .arrayStart⟩ := rfl
  rw [print, printItems_eq_map, List.cons_append, value?_cons hopen]
  cases items with
  | nil =>
      have hclose : (⟨frames, .arrayStart⟩ : Reading).step? ']'
          = some (deliver (.array []) frames) := rfl
      exact value?_cons hclose t
  | cons j items =>
      obtain ⟨c, cs, hprint, hspace, hbracket⟩ := exists_print_eq j
      have hstart : (⟨frames, .arrayStart⟩ : Reading).step? c
          = (⟨.array [] :: frames, .value⟩ : Reading).step? c := by
        simp [Reading.step?, Reading.between?, hspace, hbracket]
      have hj := h j List.mem_cons_self (.array [] :: frames) _
        (ends_flatMap (t := ']' :: t) (items.map print) (Or.inr (Or.inl rfl)))
      rw [List.map_cons, intercalate_cons, List.append_assoc, List.append_assoc,
        List.singleton_append]
      rw [hprint, List.cons_append] at hj ⊢
      rw [value?_congr hstart, hj]
      exact value?_items (fun k hk => h k (List.mem_cons_of_mem j hk)) [j]

/-- A member is read where a key may begin. -/
theorem value?_member {r : Reading} {before : List (Option String × Json)}
    (hkey : r.step? '"' = some ⟨frames, .key before .opened⟩) {m : Option String × Json}
    (hm : ReadsBack m.2) (ht : Ends t) :
    r.value? (printMember m ++ t)
      = (⟨frames, .objectNext (m :: before)⟩ : Reading).value? t := by
  obtain ⟨key, v⟩ := m
  rw [printMember, List.append_assoc, List.cons_append, value?_key key hkey]
  exact hm (.object before key :: frames) t ht

/-- The members of an object behind the first one are read in turn. -/
theorem value?_members {members : List (Option String × Json)}
    (h : ∀ m ∈ members, ReadsBack m.2) (before : List (Option String × Json)) :
    (⟨frames, .objectNext before⟩ : Reading).value?
        ((members.map printMember).flatMap (',' :: ·) ++ '\x7d' :: t)
      = (deliver (.object (before.reverse ++ members)) frames).value? t := by
  induction members generalizing before with
  | nil =>
      have hclose : (⟨frames, .objectNext before⟩ : Reading).step? '\x7d'
          = some (deliver (.object before.reverse) frames) := rfl
      rw [List.append_nil]
      exact value?_cons hclose t
  | cons m members ih =>
      have hnext : (⟨frames, .objectNext before⟩ : Reading).step? ','
          = some ⟨frames, .objectKey before⟩ := rfl
      have hkey : (⟨frames, .objectKey before⟩ : Reading).step? '"'
          = some ⟨frames, .key before .opened⟩ := rfl
      have hm := value?_member hkey (h m List.mem_cons_self)
        (ends_flatMap (t := '\x7d' :: t) (members.map printMember) (Or.inr (Or.inr rfl)))
      have hmembers := ih (fun k hk => h k (List.mem_cons_of_mem m hk)) (m :: before)
      rw [List.reverse_cons, List.append_assoc] at hmembers
      rw [List.map_cons, List.flatMap_cons, List.cons_append, List.cons_append, value?_cons hnext,
        List.append_assoc, hm]
      exact hmembers

theorem readsBack_object {members : List (Option String × Json)}
    (h : ∀ m ∈ members, ReadsBack m.2) : ReadsBack (.object members) := by
  intro frames t _
  have hopen : (⟨frames, .value⟩ : Reading).step? '\x7b' = some ⟨frames, .objectStart⟩ := rfl
  rw [print, printMembers_eq_map, List.cons_append, value?_cons hopen]
  cases members with
  | nil =>
      have hclose : (⟨frames, .objectStart⟩ : Reading).step? '\x7d'
          = some (deliver (.object []) frames) := rfl
      exact value?_cons hclose t
  | cons m members =>
      have hkey : (⟨frames, .objectStart⟩ : Reading).step? '"'
          = some ⟨frames, .key [] .opened⟩ := rfl
      have hm := value?_member hkey (h m List.mem_cons_self)
        (ends_flatMap (t := '\x7d' :: t) (members.map printMember) (Or.inr (Or.inr rfl)))
      rw [List.map_cons, intercalate_cons, List.append_assoc, List.append_assoc,
        List.singleton_append, hm]
      exact value?_members (fun k hk => h k (List.mem_cons_of_mem m hk)) [m]

end Containers

/-! ## Values -/

theorem Spelled.readsBack {j : Json} (h : Spelled j) : ReadsBack j := by
  induction h with
  | null => exact fun frames t _ => rfl
  | bool b =>
      cases b with
      | false => exact fun frames t _ => rfl
      | true => exact fun frames t _ => rfl
  | number hn => exact fun frames t ht => Reading.value?_print_number hn ht
  | string s => exact fun frames t _ => Reading.value?_quote s
  | array _ ih => exact readsBack_array ih
  | object _ ih => exact readsBack_object ih

/-- Reading undoes writing. -/
theorem read?_print {j : Json} (h : Spelled j) : read? j.print = some j := by
  have hread := h.readsBack [] [] trivial
  rw [List.append_nil] at hread
  exact hread

end TypedStyles.Json
