import TypedStyles.Stylesheet.Interchange

/-!
# Options of a generation

The options say which source file a declaration is generated from, which
declaration of a name wins, and how the declaration refers to its source map.
Options are read from JSON.  A file is always given, and what is left out
otherwise has a default.
-/

namespace TypedStyles

open Json (Layout requiredField defaultField)

/-- How a declaration refers to its source map. -/
inductive MapDelivery where
  /-- It does not. -/
  | none
  /-- By the name of a file beside it. -/
  | sibling (file : String)
  /-- By an address that holds the whole map. -/
  | inline
deriving DecidableEq

/-- The options of a generation. -/
structure Options where
  /-- The stylesheet that mappings refer to. -/
  sourceFile : String
  /-- Which declaration of a name decides its position. -/
  duplicates : DuplicatePolicy
  /-- How the declaration refers to its source map. -/
  delivery : MapDelivery
deriving DecidableEq

/-! ## Options in JSON -/

namespace DuplicatePolicy

/-- How texts call the policy. -/
def label : DuplicatePolicy → String
  | .firstWins => "first-wins"
  | .lastWins => "last-wins"

/-- The policy of this name. -/
def ofLabel? (s : String) : Option DuplicatePolicy :=
  if s = label .firstWins then some .firstWins
  else if s = label .lastWins then some .lastWins
  else none

/-- A policy as a text. -/
def toJson (p : DuplicatePolicy) : Json := .text p.label

/-- Read a policy: its name, or an object with its name as the only key and
nothing in it. -/
def ofJson? : Json → Option DuplicatePolicy
  | .string (some s) => ofLabel? s
  | .object [(some s, .null)] => ofLabel? s
  | _ => none

end DuplicatePolicy

namespace MapDelivery

/-- The fields of a delivery beside a file. -/
def siblingLayout : Layout := ⟨["file"], 1⟩

/-- A delivery as a union. -/
def toJson : MapDelivery → Json
  | .none => .record [("kind", .text "none")]
  | .sibling file => .record [("kind", .text "sibling"), ("file", .text file)]
  | .inline => .record [("kind", .text "inline")]

/-- Read the file of a delivery beside it. -/
def siblingOfJson? (fields : Json) : Option MapDelivery := do
  match ← siblingLayout.fields? fields with
  | [file] =>
      let file ← requiredField Json.text? file
      return .sibling file
  | _ => Option.none

/-- Read a delivery, where `room` levels of nesting are left. -/
def ofJson? (room : Nat) (j : Json) : Option MapDelivery := do
  let (kind, fields) ← Json.union? room j
  if kind = "none" then (Json.noFields? fields).map fun _ => .none
  else if kind = "sibling" then siblingOfJson? fields
  else if kind = "inline" then (Json.noFields? fields).map fun _ => .inline
  else Option.none

end MapDelivery

namespace Options

/-- The fields of the options. -/
def layout : Layout := ⟨["source-file", "duplicates", "map-delivery"], 1⟩

/-- Options as a record. -/
def toJson (o : Options) : Json :=
  .record [
    ("source-file", .text o.sourceFile),
    ("duplicates", o.duplicates.toJson),
    ("map-delivery", o.delivery.toJson)]

/-- Read options.  The delivery stands in the options, so one level of nesting
is taken. -/
def ofJson? (j : Json) : Option Options := do
  match ← layout.fields? j with
  | [sourceFile, duplicates, delivery] =>
      let sourceFile ← requiredField Json.text? sourceFile
      let duplicates ← defaultField DuplicatePolicy.ofJson? .firstWins duplicates
      let delivery ← defaultField (MapDelivery.ofJson? (Json.nestingLimit - 1)) .none delivery
      return ⟨sourceFile, duplicates, delivery⟩
  | _ => none

/-- Read a text as options. -/
def parse? (text : String) : Option Options := (Json.read? text.toList).bind ofJson?

end Options

/-! ## Tests -/

example : Options.parse? "\x7b\"source-file\":\"a.css\"\x7d"
    = some ⟨"a.css", .firstWins, .none⟩ := by decide +kernel
example : Options.parse? "[\"a.css\",\"last-wins\",[\"sibling\",\"a.map\"]]"
    = some ⟨"a.css", .lastWins, .sibling "a.map"⟩ := by decide +kernel

end TypedStyles
