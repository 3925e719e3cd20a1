import TypedStyles.Json.Record
import TypedStyles.Proofs.Json.RoundTrip

/-!
# Records that were written

The fields of a written record are the values of its members
(`fields?_record`), and the kind of a written union is found (`union?_record`).

Everything that is written is `Written`: it is made of words, texts and missing
values, nested to a known depth.  So its text is read back
(`Written.read?_render`), and where values are set aside it can be set aside
(`Written.kept`).
-/

namespace TypedStyles.Json

/-! ## Fields of a record -/

section Members

variable {members : List (String × Json)}

theorem member?_map_some (h : (members.map Prod.fst).Nodup) (name : String) :
    member? name (members.map fun m => (some m.1, m.2)) = some (members.lookup name) := by
  induction members with
  | nil => rfl
  | cons m members ih =>
      obtain ⟨hfresh, hrest⟩ := List.nodup_cons.mp h
      by_cases hname : name = m.1
      · have hnone : (members.map fun m => (some m.1, m.2)).filter (·.1 = some name) = [] := by
          rw [List.filter_eq_nil_iff]
          intro x hx
          obtain ⟨k, hk, rfl⟩ := List.mem_map.mp hx
          have hne : k.1 ≠ name := fun he => hfresh (hname ▸ he ▸ List.mem_map_of_mem hk)
          simpa using hne
        have hself : (name == m.1) = true := by simpa using hname
        rw [List.lookup_cons, hself, member?, List.map_cons,
          List.filter_cons_of_pos (by simpa using hname.symm), hnone]
      · have hother : (name == m.1) = false := by simpa using hname
        rw [List.lookup_cons, hother, ← ih hrest, member?, List.map_cons,
          List.filter_cons_of_neg (by simpa using Ne.symm hname)]
        rfl

/-- The fields of a record are found by their names. -/
theorem fields?_record (layout : Layout) (h : (members.map Prod.fst).Nodup) :
    layout.fields? (.record members) = some (layout.names.map fun name => members.lookup name) := by
  have hkeys : (members.map fun m => (some m.1, m.2)).all (·.1.isSome) = true := by simp
  have hmember : (member? · (members.map fun m => (some m.1, m.2)))
      = fun name => (pure (members.lookup name) : Option (Option Json)) :=
    funext (member?_map_some h)
  rw [record, Layout.fields?]
  simp only [hkeys, if_true]
  rw [hmember, List.mapM_pure]
  rfl

/-- The kind of a union is found, and its other fields are left. -/
theorem union?_record {room : Nat} {kind : String} (hkind : "kind" ∉ members.map Prod.fst)
    (hkept : (record (("kind", .text kind) :: members)).kept room = true) :
    union? room (.record (("kind", .text kind) :: members)) = some (kind, .record members) := by
  have hne : ∀ m ∈ members.map fun m => (some m.1, m.2), m.1 ≠ some "kind" := by
    intro x hx he
    obtain ⟨m, hm, rfl⟩ := List.mem_map.mp hx
    exact hkind (Option.some.inj he ▸ List.mem_map_of_mem hm)
  have hfound : member? "kind" ((some "kind", text kind) :: members.map fun m => (some m.1, m.2))
      = some (some (text kind)) := by
    have hnone : (members.map fun m => (some m.1, m.2)).filter (·.1 = some "kind") = [] :=
      List.filter_eq_nil_iff.mpr fun m hm => by simpa using hne m hm
    rw [member?, List.filter_cons_of_pos (by simp), hnone]
  have hothers : (members.map fun m => (some m.1, m.2)).filter (·.1 ≠ some "kind")
      = members.map fun m => (some m.1, m.2) :=
    List.filter_eq_self.mpr fun m hm => by simpa using hne m hm
  unfold union?
  rw [if_pos hkept]
  simp only [record, List.map_cons, hfound]
  rw [List.filter_cons_of_neg (by simp), hothers]
  rfl

end Members

/-! ## Values of fields -/

@[simp] theorem word?_word (n : UInt32) : word? (word n) = some n := by
  have hn := n.toNat_lt
  simp [word, nat, word?, Number.ofNat, Number.word?, hn]

@[simp] theorem text?_text (s : String) : text? (text s) = some s := rfl

@[simp] theorem optionalField_textOrNull (s : Option String) :
    optionalField text? (some (textOrNull s)) = some s := by
  cases s with
  | none => rfl
  | some s => rfl

section Lists

variable {α : Type} {read? : Json → Option α} {write : α → Json}

theorem list?_map (h : ∀ a, read? (write a) = some a) (as : List α) :
    list? read? (.array (as.map write)) = some as := by
  have hread : read? ∘ write = fun a => pure a := funext h
  rw [list?, List.mapM_map, hread, List.mapM_pure, List.map_id']
  rfl

/-- A field that is left out when it is missing is read back. -/
theorem optionalField_map (h : ∀ a, read? (write a) = some a) (hnull : ∀ a, write a ≠ .null)
    (a : Option α) : optionalField read? (a.map write) = some a := by
  cases a with
  | none => rfl
  | some a =>
      rw [Option.map_some, optionalField, h]
      · rfl
      · exact hnull a

end Lists

@[simp] theorem list?_texts (ss : List String) : list? text? (texts ss) = some ss :=
  list?_map text?_text ss

@[simp] theorem optionalField_map_text (s : Option String) :
    optionalField text? (s.map text) = some s :=
  optionalField_map text?_text (fun _ => nofun) s

/-! ## Written values -/

/-- The values that are written, nested to a depth at most. -/
inductive Written : Nat → Json → Prop where
  | null (depth : Nat) : Written depth .null
  | word (depth : Nat) (n : UInt32) : Written depth (word n)
  | text (depth : Nat) (s : String) : Written depth (text s)
  | array {depth : Nat} {items : List Json} (h : ∀ j ∈ items, Written depth j) :
      Written (depth + 1) (.array items)
  | record {depth : Nat} {members : List (String × Json)} (h : ∀ m ∈ members, Written depth m.2) :
      Written (depth + 1) (.record members)

theorem fitsDouble_word (n : UInt32) : (Number.ofNat n.toNat).fitsDouble = true := by
  have hn := n.toNat_lt
  have hlength : (Nat.toDigits 10 n.toNat).length ≤ 10 :=
    (Nat.length_toDigits_le_iff (by decide) (by decide)).mpr (by omega)
  have hsize : ((Nat.toDigits 10 n.toNat).length : Int) + 0 < 309 := by omega
  rw [Number.fitsDouble, Number.ofNat]
  dsimp only
  rw [decide_eq_true hsize, Bool.or_true, Bool.true_or]

theorem keptItems_eq_all (room : Nat) (js : List Json) :
    keptItems room js = js.all (kept room) := by
  induction js with
  | nil => rfl
  | cons j js ih => rw [keptItems, ih, List.all_cons]

theorem keptMembers_eq_all (room : Nat) (ms : List (Option String × Json)) :
    keptMembers room ms = ms.all fun m => m.1.isSome && kept room m.2 := by
  induction ms with
  | nil => rfl
  | cons m ms ih => rw [keptMembers, keptMember, ih, List.all_cons]

namespace Written

variable {depth : Nat} {j : Json}

theorem spelled (h : Written depth j) : Spelled j := by
  induction h with
  | null depth => exact .null
  | word depth n => exact .number fun _ => rfl
  | text depth s => exact .string _
  | array _ ih => exact .array ih
  | record _ ih =>
      refine .object fun m hm => ?_
      obtain ⟨k, hk, rfl⟩ := List.mem_map.mp hm
      exact ih k hk

theorem mono {room : Nat} (h : Written depth j) (hroom : depth ≤ room) : Written room j := by
  induction h generalizing room with
  | null depth => exact .null room
  | word depth n => exact .word room n
  | text depth s => exact .text room s
  | array _ ih =>
      obtain ⟨room, rfl⟩ := Nat.exists_eq_succ_of_ne_zero (Nat.ne_zero_of_lt hroom)
      exact .array fun j hj => ih j hj (Nat.le_of_succ_le_succ hroom)
  | record _ ih =>
      obtain ⟨room, rfl⟩ := Nat.exists_eq_succ_of_ne_zero (Nat.ne_zero_of_lt hroom)
      exact .record fun m hm => ih m hm (Nat.le_of_succ_le_succ hroom)

/-- A written value can be set aside where its depth is left. -/
theorem kept (h : Written depth j) : j.kept depth = true := by
  induction h with
  | null depth => rfl
  | word depth n => exact fitsDouble_word n
  | text depth s => rfl
  | array _ ih =>
      rw [Json.kept, keptItems_eq_all, List.all_eq_true]
      exact ih
  | record _ ih =>
      rw [Json.record, Json.kept, keptMembers_eq_all, List.all_map, List.all_eq_true]
      exact ih

/-- The text of a written value is read back. -/
theorem read?_render (h : Written depth j) : read? j.render.toList = some j := by
  rw [render, String.toList_ofList]
  exact read?_print h.spelled

theorem textOrNull (depth : Nat) (s : Option String) : Written depth (textOrNull s) := by
  cases s with
  | none => exact .null depth
  | some s => exact .text depth s

theorem map {α : Type} {write : α → Json} (h : ∀ a, Written depth (write a)) (as : List α) :
    Written (depth + 1) (.array (as.map write)) := by
  refine .array fun j hj => ?_
  obtain ⟨a, -, rfl⟩ := List.mem_map.mp hj
  exact h a

theorem texts (depth : Nat) (ss : List String) : Written (depth + 1) (texts ss) :=
  map (Written.text depth) ss

end Written

end TypedStyles.Json
