import TypedStyles.Json.Reader
import TypedStyles.Json.Printer

/-!
# Records in JSON

A record is written as an object with one member for each field.  It is read
from an object in any order of members, and also from an array with the fields
in their own order.

In an object, a field may be given once.  Other members are passed over, but
their keys must have a text.  In an array, fields at the end may be left out,
as far as the layout of the record allows it.

A union is a record with a member `kind` that says which of its forms it is.
The other members are the fields of the form.  In an array the kind comes
first.  The whole union is set aside until its kind is known, so it must be
`Json.kept`.
-/

namespace TypedStyles.Json

/-! ## Fields -/

/-- The fields of a record. -/
structure Layout where
  /-- The names of the fields, in their order. -/
  names : List String
  /-- How many fields an array must have. -/
  required : Nat

/-- The value of a key, or none if the key is absent.  A key that occurs twice
is an error. -/
def member? (name : String) (members : List (Option String × Json)) : Option (Option Json) :=
  match members.filter fun m => m.1 = some name with
  | [] => some none
  | [m] => some (some m.2)
  | _ => none

/-- The values of the fields of a record, where one may be absent. -/
def Layout.fields? (layout : Layout) : Json → Option (List (Option Json))
  | .object members =>
      if members.all (·.1.isSome) then layout.names.mapM (member? · members) else none
  | .array items =>
      if layout.required ≤ items.length ∧ items.length ≤ layout.names.length then
        some (items.map some ++ List.replicate (layout.names.length - items.length) none)
      else none
  | _ => none

/-- A field that must be there. -/
def requiredField {α : Type} (read? : Json → Option α) : Option Json → Option α
  | some j => read? j
  | none => none

/-- A field that may be absent or null. -/
def optionalField {α : Type} (read? : Json → Option α) : Option Json → Option (Option α)
  | none => some none
  | some .null => some none
  | some j => (read? j).map some

/-- A field that has a value of its own when it is absent. -/
def defaultField {α : Type} (read? : Json → Option α) (absent : α) : Option Json → Option α
  | some j => read? j
  | none => some absent

/-! ## Values of fields -/

/-- A 32-bit word. -/
def word? : Json → Option UInt32
  | .number n => n.word?
  | _ => none

/-- A text. -/
def text? : Json → Option String
  | .string t => t
  | _ => none

/-- A list. -/
def list? {α : Type} (read? : Json → Option α) : Json → Option (List α)
  | .array items => items.mapM read?
  | _ => none

/-- The value of a 32-bit word. -/
def word (n : UInt32) : Json := .nat n.toNat

/-- The value of a text that may be missing. -/
def textOrNull : Option String → Json
  | some s => .text s
  | none => .null

/-- The value of a list of texts. -/
def texts (ss : List String) : Json := .array (ss.map .text)

/-! ## Unions -/

/-- The kind of a union and its other fields, where `room` levels of nesting
are left. -/
def union? (room : Nat) (j : Json) : Option (String × Json) :=
  if j.kept room then
    match j with
    | .object members =>
        match member? "kind" members with
        | some (some (.string (some kind))) =>
            some (kind, .object (members.filter fun m => m.1 ≠ some "kind"))
        | _ => none
    | .array (.string (some kind) :: items) => some (kind, .array items)
    | _ => none
  else none

/-- The other fields of a form without fields.  An object may have any, and an
array none. -/
def noFields? : Json → Option Unit
  | .object _ => some ()
  | .array [] => some ()
  | _ => none

end TypedStyles.Json
