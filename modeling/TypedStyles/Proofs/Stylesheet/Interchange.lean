import TypedStyles.Proofs.SourceMap.Interchange
import TypedStyles.Stylesheet.Interchange

/-!
# Stylesheets are read back

What is missing leaves no member, and what leaves no member is read as missing.
So a stylesheet is read back from its text (`CompiledSheet.parse?_render`).
-/

namespace TypedStyles

open Json (Written fields?_record union?_record requiredField optionalField defaultField)

/-! ## Members that may be missing -/

section MemberIfSome

variable {α : Type} {write : α → Json}

theorem lookup_memberIfSome (name key : String) (a : Option α) :
    (memberIfSome key write a).lookup name = if name = key then a.map write else none := by
  cases a with
  | none => simp [memberIfSome]
  | some a =>
      by_cases h : name = key
      · simp [memberIfSome, h]
      · have hother : (name == key) = false := by simpa using h
        simp [memberIfSome, List.lookup_cons, h, hother]

theorem sublist_memberIfSome (key : String) (a : Option α) :
    ((memberIfSome key write a).map Prod.fst).Sublist [key] := by
  cases a with
  | none => exact List.nil_sublist _
  | some a => exact List.Sublist.refl _

theorem written_of_mem_memberIfSome {depth : Nat} (h : ∀ a, Written depth (write a)) (key : String)
    (a : Option α) : ∀ m ∈ memberIfSome key write a, Written depth m.2 := by
  intro m hm
  cases a with
  | none => cases hm
  | some a =>
      obtain rfl := List.mem_singleton.mp hm
      exact h a

end MemberIfSome

/-! ## Names and classes -/

namespace Named

theorem sublist_members (n : Named) : (n.members.map Prod.fst).Sublist ["name", "position"] :=
  (sublist_memberIfSome "position" n.position).cons_cons "name"

theorem ofJson?_members (n : Named) : ofJson? (.record n.members) = some n := by
  rw [ofJson?, fields?_record _ (n.sublist_members.nodup (by simp))]
  simp [layout, members, List.lookup_cons, lookup_memberIfSome, requiredField]

theorem written_of_mem_members (n : Named) : ∀ m ∈ n.members, Written 1 m.2 := by
  rw [members, List.forall_mem_cons]
  exact ⟨.text 1 n.name, written_of_mem_memberIfSome Position.written_toJson "position" n.position⟩

end Named

namespace StyleClass

theorem sublist_members (c : StyleClass) :
    (c.members.map Prod.fst).Sublist ["name", "position", "states"] := by
  rw [members, List.map_append]
  refine c.named.sublist_members.append ?_
  split
  next => exact List.nil_sublist _
  next => exact List.Sublist.refl _

theorem ofJson?_members (c : StyleClass) : ofJson? (.record c.members) = some c := by
  rw [ofJson?, fields?_record _ (c.sublist_members.nodup (by simp)), members]
  generalize hrest : (if c.states = [] then [] else
    [("states", Json.array (c.states.map Named.toJson))]) = rest
  have hposition : rest.lookup "position" = none := by
    rw [← hrest]
    split
    next => rfl
    next => rfl
  have hstates : defaultField (Json.list? Named.ofJson?) [] (rest.lookup "states")
      = some c.states := by
    rw [← hrest]
    split
    next h =>
      rw [h]
      rfl
    next => exact Json.list?_map Named.ofJson?_members c.states
  simp [layout, Named.members, named, List.lookup_cons, List.lookup_append, lookup_memberIfSome,
    requiredField, hposition, hstates]

theorem written_of_mem_members (c : StyleClass) : ∀ m ∈ c.members, Written 3 m.2 := by
  rw [members, List.forall_mem_append]
  refine ⟨fun m hm => (c.named.written_of_mem_members m hm).mono (by decide), ?_⟩
  split
  next => simp
  next =>
    rw [List.forall_mem_singleton]
    exact .map (fun s => .record s.written_of_mem_members) c.states

end StyleClass

/-! ## Declarations -/

namespace Symbol

theorem written_of_mem_members (s : Symbol) : ∀ m ∈ s.members, Written 3 m.2 := by
  have hnamed : ∀ n : Named, ∀ m ∈ n.members, Written 3 m.2 :=
    fun n m hm => (n.written_of_mem_members m hm).mono (by decide)
  cases s with
  | styleClass c => exact c.written_of_mem_members
  | stVar n => exact hnamed n
  | cssVar n => exact hnamed n
  | keyframes n => exact hnamed n

theorem written_toJson (s : Symbol) : Written 4 s.toJson := by
  refine .record ?_
  rw [List.forall_mem_cons]
  exact ⟨.text 3 _, s.written_of_mem_members⟩

theorem kind_not_mem_members (s : Symbol) : "kind" ∉ s.members.map Prod.fst := by
  have hnamed : ∀ n : Named, "kind" ∉ n.members.map Prod.fst :=
    fun n h => absurd (n.sublist_members.subset h) (by simp)
  cases s with
  | styleClass c => exact fun h => absurd (c.sublist_members.subset h) (by simp)
  | stVar n => exact hnamed n
  | cssVar n => exact hnamed n
  | keyframes n => exact hnamed n

theorem ofJson?_toJson {room : Nat} (hroom : 4 ≤ room) (s : Symbol) :
    ofJson? room s.toJson = some s := by
  have hkept : s.toJson.kept room = true := (s.written_toJson.mono hroom).kept
  rw [ofJson?, toJson, union?_record s.kind_not_mem_members hkept]
  cases s with
  | styleClass c => exact congrArg (Option.map Symbol.styleClass) c.ofJson?_members
  | stVar n => exact congrArg (Option.map Symbol.stVar) n.ofJson?_members
  | cssVar n => exact congrArg (Option.map Symbol.cssVar) n.ofJson?_members
  | keyframes n => exact congrArg (Option.map Symbol.keyframes) n.ofJson?_members

end Symbol

/-! ## Stylesheets -/

namespace CompiledSheet

theorem ofJson?_toJson (sheet : CompiledSheet) : ofJson? sheet.toJson = some sheet := by
  have hkeys : ((memberIfSome "namespace" Json.text sheet.nameSpace ++
      memberIfSome "root" Json.text sheet.root ++
      memberIfSome "symbols" (fun ss => .array (ss.map Symbol.toJson)) sheet.symbols).map
        Prod.fst).Sublist ["namespace", "root", "symbols"] := by
    rw [List.map_append, List.map_append]
    exact ((sublist_memberIfSome _ _).append (sublist_memberIfSome _ _)).append
      (sublist_memberIfSome _ _)
  have hsymbols := Json.optionalField_map
    (Json.list?_map (Symbol.ofJson?_toJson (by decide : 4 ≤ Json.nestingLimit - 2)))
    (fun _ => nofun) sheet.symbols
  rw [ofJson?, toJson, fields?_record _ (hkeys.nodup (by simp))]
  simp [layout, List.lookup_append, lookup_memberIfSome, hsymbols]

theorem written_toJson (sheet : CompiledSheet) : Written 6 sheet.toJson := by
  refine .record ?_
  rw [List.forall_mem_append, List.forall_mem_append]
  exact ⟨⟨written_of_mem_memberIfSome (Written.text 5) _ _,
    written_of_mem_memberIfSome (Written.text 5) _ _⟩,
    written_of_mem_memberIfSome (Written.map Symbol.written_toJson) _ _⟩

/-- A stylesheet is read back from its text. -/
theorem parse?_render (sheet : CompiledSheet) : parse? sheet.toJson.render = some sheet := by
  rw [parse?, sheet.written_toJson.read?_render, Option.bind_some, ofJson?_toJson]

end CompiledSheet

/-- A text has metadata if it is a stylesheet that has. -/
theorem Metadata.ofText_eq_ok_iff {policy : DuplicatePolicy} {text : String} {m : Metadata} :
    ofText policy text = .ok m ↔
      ∃ sheet, CompiledSheet.parse? text = some sheet ∧ sheet.normalize policy = .ok m := by
  rw [ofText]
  cases CompiledSheet.parse? text with
  | none => exact ⟨nofun, fun ⟨_, h, _⟩ => nomatch h⟩
  | some sheet =>
      constructor
      · exact fun h => ⟨sheet, rfl, h⟩
      · rintro ⟨_, hsheet, h⟩
        rw [Option.some.inj hsheet]
        exact h

end TypedStyles
