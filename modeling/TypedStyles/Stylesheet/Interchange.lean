import TypedStyles.SourceMap.Interchange
import TypedStyles.Stylesheet.Normalize

/-!
# Stylesheets in JSON

A compiled stylesheet is a record in JSON, and each of its declarations is a
union by kind.  What is missing is not written: an absent position, an absent
list and an empty list of states leave no member.
-/

namespace TypedStyles

open Json (Layout requiredField optionalField defaultField)

/-- A member for a value that may be missing. -/
def memberIfSome {α : Type} (name : String) (toJson : α → Json) : Option α → List (String × Json)
  | some a => [(name, toJson a)]
  | none => []

/-! ## Names and classes -/

namespace Named

/-- The fields of a name. -/
def layout : Layout := ⟨["name", "position"], 1⟩

/-- The members of a name. -/
def members (n : Named) : List (String × Json) :=
  ("name", .text n.name) :: memberIfSome "position" Position.toJson n.position

/-- A name as a record. -/
def toJson (n : Named) : Json := .record n.members

/-- Read a name. -/
def ofJson? (j : Json) : Option Named := do
  match ← layout.fields? j with
  | [name, position] =>
      let name ← requiredField Json.text? name
      let position ← optionalField Position.ofJson? position
      return ⟨name, position⟩
  | _ => none

end Named

namespace StyleClass

/-- The fields of a class. -/
def layout : Layout := ⟨["name", "position", "states"], 1⟩

/-- The members of a class. -/
def members (c : StyleClass) : List (String × Json) :=
  c.named.members ++
    if c.states = [] then [] else [("states", .array (c.states.map Named.toJson))]

/-- Read a class. -/
def ofJson? (j : Json) : Option StyleClass := do
  match ← layout.fields? j with
  | [name, position, states] =>
      let name ← requiredField Json.text? name
      let position ← optionalField Position.ofJson? position
      let states ← defaultField (Json.list? Named.ofJson?) [] states
      return ⟨name, position, states⟩
  | _ => none

end StyleClass

/-! ## Declarations -/

namespace Symbol

/-- The kind of a declaration. -/
def kind : Symbol → SymbolKind
  | .styleClass _ => .styleClass
  | .stVar _ => .stVar
  | .cssVar _ => .cssVar
  | .keyframes _ => .keyframes

/-- The members of a declaration, its kind apart. -/
def members : Symbol → List (String × Json)
  | .styleClass c => c.members
  | .stVar n => n.members
  | .cssVar n => n.members
  | .keyframes n => n.members

/-- A declaration as a union. -/
def toJson (s : Symbol) : Json := .record (("kind", .text s.kind.label) :: s.members)

/-- Read a declaration, where `room` levels of nesting are left. -/
def ofJson? (room : Nat) (j : Json) : Option Symbol := do
  let (kind, fields) ← Json.union? room j
  if kind = "class" then (StyleClass.ofJson? fields).map .styleClass
  else if kind = "st-var" then (Named.ofJson? fields).map .stVar
  else if kind = "css-var" then (Named.ofJson? fields).map .cssVar
  else if kind = "keyframes" then (Named.ofJson? fields).map .keyframes
  else none

end Symbol

/-! ## Stylesheets -/

namespace CompiledSheet

/-- The fields of a stylesheet. -/
def layout : Layout := ⟨["namespace", "root", "symbols"], 0⟩

/-- A stylesheet as a record. -/
def toJson (sheet : CompiledSheet) : Json :=
  .record (memberIfSome "namespace" .text sheet.nameSpace ++
    memberIfSome "root" .text sheet.root ++
    memberIfSome "symbols" (fun ss => .array (ss.map Symbol.toJson)) sheet.symbols)

/-- Read a stylesheet.  A declaration stands in a list in the stylesheet, so two
levels of nesting are taken. -/
def ofJson? (j : Json) : Option CompiledSheet := do
  match ← layout.fields? j with
  | [nameSpace, root, symbols] =>
      let nameSpace ← optionalField Json.text? nameSpace
      let root ← optionalField Json.text? root
      let symbols ← optionalField (Json.list? (Symbol.ofJson? (Json.nestingLimit - 2))) symbols
      return ⟨nameSpace, root, symbols⟩
  | _ => none

/-- Read a text as a stylesheet. -/
def parse? (text : String) : Option CompiledSheet := (Json.read? text.toList).bind ofJson?

end CompiledSheet

/-- The metadata of a stylesheet in JSON. -/
def Metadata.ofText (policy : DuplicatePolicy) (text : String) : Except MetadataError Metadata :=
  match CompiledSheet.parse? text with
  | some sheet => sheet.normalize policy
  | none => .error .malformed

end TypedStyles
