import TypedStyles.Text.Position

/-!
# Mappings

A mapping leads a place in a generated text back to its origin, a place in a
source file.  Mappings are gathered in a `Recording`, which keeps every one of them in
the order in which they were added.  A snapshot of the recording is sorted by
generated position.  The sort is stable, so two mappings of one generated
position stay in the order in which they were added.
-/

namespace TypedStyles

/-- A place in a source file. -/
structure Origin where
  file : String
  /-- The place in it. -/
  position : Position
  /-- The name of the thing at that place, if one is given. -/
  name : Option String
deriving DecidableEq

/-- A place in a generated text and where it comes from. -/
structure Mapping where
  /-- The place in the generated text. -/
  generated : Position
  /-- Where it comes from. -/
  origin : Origin
deriving DecidableEq

/-- Mappings in the order of their generated positions, those of one position
in the order in which they stood. -/
def Mapping.sort (ms : List Mapping) : List Mapping :=
  ms.mergeSort fun m n => m.generated ≤ n.generated

/-! ## Recordings -/

/-- The mappings added so far. -/
structure Recording where
  /-- The mappings, oldest first. -/
  mappings : Array Mapping

namespace Recording

/-- The recording without mappings. -/
def empty : Recording := ⟨#[]⟩

/-- Add a mapping to a place in a file, without a name. -/
def add (r : Recording) (generated : Position) (file : String) (place : Position) : Recording :=
  ⟨r.mappings.push ⟨generated, ⟨file, place, none⟩⟩⟩

/-- The mappings added so far, oldest first. -/
def toList (r : Recording) : List Mapping := r.mappings.toList

/-- The mappings in the order of their generated positions. -/
def snapshot (r : Recording) : List Mapping := Mapping.sort r.toList

/-- The number of mappings. -/
def size (r : Recording) : Nat := r.mappings.size

/-- No mapping was added yet. -/
def isEmpty (r : Recording) : Bool := r.mappings.isEmpty

@[simp] theorem toList_empty : empty.toList = [] := rfl

/-- Adding appends one mapping and keeps the others. -/
@[simp] theorem toList_add (r : Recording) (generated : Position) (file : String)
    (place : Position) :
    (r.add generated file place).toList = r.toList ++ [⟨generated, ⟨file, place, none⟩⟩] := by
  simp [add, toList]

@[simp] theorem size_eq (r : Recording) : r.size = r.toList.length := by
  simp [size, toList]

end Recording

end TypedStyles
