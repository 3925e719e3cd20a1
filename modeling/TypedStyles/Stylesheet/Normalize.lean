import TypedStyles.Stylesheet.Symbol

/-!
# From declarations to the exported surface

`CompiledSheet.normalize` turns the declarations of a stylesheet into its
metadata.  A name keeps the place where it first appears among the names of its
kind.  A name that is declared again only changes its position, and only under
the policy by which the last declaration wins.  The states of all declarations
of a class are put together by the same rule.

The root class is always there and always first.  Its first declaration counts
as its first appearance, so it decides the position under either policy.  A
root class that is never declared has the position of the beginning of the
stylesheet.

A stylesheet is rejected if its namespace or its list of declarations is
missing, if a name is empty, or if a position has line zero.  The first fault
in this order is reported: the namespace, the list, the name of the root class,
and then the declarations in turn.  A declaration is rejected whether or not it
decides anything.

A `Reader` goes through the declarations once.  Each record is checked and then
added to the group of its kind, where an index finds the record of the name if
there is one.
-/

namespace TypedStyles

/-- Which declaration of a name decides its position. -/
inductive DuplicatePolicy where
  | firstWins
  | lastWins
deriving DecidableEq

/-- The position of a name that is declared again. -/
def DuplicatePolicy.choose (policy : DuplicatePolicy) (old new : Option Position) :
    Option Position :=
  match policy with
  | .firstWins => old
  | .lastWins => new

/-! ## Errors -/

/-- Why a stylesheet has no metadata. -/
inductive MetadataError where
  /-- The text is not a compiled stylesheet in JSON. -/
  | malformed
  | missingNamespace
  | emptyNamespace
  | missingSymbols
  | emptyRoot
  | emptyName (kind : SymbolKind)
  | lineZero (kind : SymbolKind) (name : String)
deriving DecidableEq

/-- What an error says about its cause.  A text that cannot be read is not
described further. -/
def MetadataError.cause : MetadataError → String
  | .malformed => "<json>"
  | .missingNamespace => "missing namespace"
  | .emptyNamespace => "namespace is empty"
  | .missingSymbols => "missing symbol list"
  | .emptyRoot => "root class symbol with an empty name"
  | .emptyName kind => kind.label ++ " symbol with an empty name"
  | .lineZero kind name => kind.label ++ " '" ++ name ++ "' has line 0; lines are 1-based"

/-- The wording of an error. -/
def MetadataError.message (e : MetadataError) : String :=
  "invalid stylesheet metadata: " ++ e.cause

/-! ## Checks -/

/-- Check a name and its position. -/
def Named.check (kind : SymbolKind) (n : Named) : Except MetadataError Unit :=
  if n.name = "" then .error (.emptyName kind)
  else if n.position.any (·.line = 0) then .error (.lineZero kind n.name)
  else .ok ()

/-! ## Groups -/

/-- Items in the order in which their names came up, with an index of the names. -/
structure Indexed (α : Type) where
  items : List α
  /-- The place of the item of a name. -/
  index : List (String × Nat)
deriving DecidableEq

namespace Indexed

variable {α : Type}

/-- No items. -/
def empty : Indexed α := ⟨[], []⟩

/-- Change the item of a name, or put a new item at the end.  The place of the item is told. -/
def upsert (x : String) (change : α → α) (new : α) (g : Indexed α) : Nat × Indexed α :=
  match g.index.lookup x with
  | some i => (i, { g with items := g.items.modify i change })
  | none => (g.items.length, ⟨g.items ++ [new], (x, g.items.length) :: g.index⟩)

/-- Change the item at a place. -/
def modify (i : Nat) (change : α → α) (g : Indexed α) : Indexed α :=
  { g with items := g.items.modify i change }

end Indexed

/-- Add a name to a group of names. -/
def Named.insert (policy : DuplicatePolicy) (n : Named) (g : Indexed Named) : Indexed Named :=
  (g.upsert n.name (fun m => { m with position := policy.choose m.position n.position }) n).2

/-! ## Classes -/

/-- The name of the root class where none is given. -/
def defaultRoot : String := "root"

/-- The position of a root class that is never declared. -/
def implicitRootPosition : Position := ⟨1, 0⟩

/-- A class while its declarations are read. -/
structure ClassBuilder where
  name : String
  position : Option Position
  /-- A declaration was seen.  Only the root class can be without one. -/
  declared : Bool
  states : Indexed Named
deriving DecidableEq

namespace ClassBuilder

/-- The root class before any declaration. -/
def undeclared (name : String) : ClassBuilder := ⟨name, none, false, .empty⟩

/-- A class at its first declaration. -/
def first (c : StyleClass) : ClassBuilder := ⟨c.name, c.position, true, .empty⟩

/-- A class that is declared once more. -/
def declare (policy : DuplicatePolicy) (c : StyleClass) (k : ClassBuilder) : ClassBuilder :=
  { k with
    position := if k.declared then policy.choose k.position c.position else c.position
    declared := true }

/-- Add a state to a class. -/
def addState (policy : DuplicatePolicy) (k : ClassBuilder) (s : Named) : ClassBuilder :=
  { k with states := s.insert policy k.states }

/-- The root class, once all declarations were seen. -/
def close (k : ClassBuilder) : ClassBuilder :=
  if k.declared then k else { k with position := some implicitRootPosition }

/-- The record of a class. -/
def build (k : ClassBuilder) : StyleClass := ⟨k.name, k.position, k.states.items⟩

end ClassBuilder

/-! ## Reading declarations -/

/-- What was read of a stylesheet so far.  The root class is the first of the classes. -/
structure Reader where
  classes : Indexed ClassBuilder
  stVars : Indexed Named
  cssVars : Indexed Named
  keyframes : Indexed Named

namespace Reader

/-- Before any declaration the root class is there. -/
def start (root : String) : Reader where
  classes := ⟨[.undeclared root], [(root, 0)]⟩
  stVars := .empty
  cssVars := .empty
  keyframes := .empty

/-- Read a state of the class at a place. -/
def readState (policy : DuplicatePolicy) (i : Nat) (r : Reader) (s : Named) :
    Except MetadataError Reader := do
  s.check .state
  return { r with classes := r.classes.modify i (·.addState policy s) }

/-- Read a declaration.  The states of a class come after the class. -/
def read (policy : DuplicatePolicy) (r : Reader) : Symbol → Except MetadataError Reader
  | .styleClass c => do
      c.named.check .styleClass
      let (i, classes) := r.classes.upsert c.name (.declare policy c) (.first c)
      c.states.foldlM (readState policy i) { r with classes := classes }
  | .stVar n => do
      n.check .stVar
      return { r with stVars := n.insert policy r.stVars }
  | .cssVar n => do
      n.check .cssVar
      return { r with cssVars := n.insert policy r.cssVars }
  | .keyframes n => do
      n.check .keyframes
      return { r with keyframes := n.insert policy r.keyframes }

/-- The surface, once all declarations were read. -/
def metadata (nameSpace : String) (r : Reader) : Metadata where
  nameSpace := nameSpace
  classes := (r.classes.modify 0 .close).items.map ClassBuilder.build
  stVars := r.stVars.items
  cssVars := r.cssVars.items
  keyframes := r.keyframes.items

end Reader

/-! ## Normalizing -/

/-- The namespace of a stylesheet, which must not be empty. -/
def CompiledSheet.checkedNamespace (sheet : CompiledSheet) : Except MetadataError String :=
  match sheet.nameSpace with
  | none => .error .missingNamespace
  | some s => if s = "" then .error .emptyNamespace else .ok s

/-- The declarations of a stylesheet, which must be there. -/
def CompiledSheet.checkedSymbols (sheet : CompiledSheet) : Except MetadataError (List Symbol) :=
  match sheet.symbols with
  | none => .error .missingSymbols
  | some symbols => .ok symbols

/-- The name of the root class, which must not be empty. -/
def CompiledSheet.checkedRoot (sheet : CompiledSheet) : Except MetadataError String :=
  let root := sheet.root.getD defaultRoot
  if root = "" then .error .emptyRoot else .ok root

/-- The metadata of a stylesheet. -/
def CompiledSheet.normalize (policy : DuplicatePolicy) (sheet : CompiledSheet) :
    Except MetadataError Metadata := do
  let nameSpace ← sheet.checkedNamespace
  let symbols ← sheet.checkedSymbols
  let root ← sheet.checkedRoot
  let r ← symbols.foldlM (Reader.read policy) (.start root)
  return r.metadata nameSpace

/-! ## Tests -/

section Tests

/-- The classes that declarations of classes export, with the names of their states. -/
def exported (policy : DuplicatePolicy) (cs : List StyleClass) :
    Option (List (String × Option Position × List String)) :=
  (CompiledSheet.normalize policy ⟨some "n", none, some (cs.map .styleClass)⟩).toOption.map
    fun m => m.classes.map fun c => (c.name, c.position, c.states.map (·.name))

/-- The root class is first even if it is declared later. -/
example : exported .firstWins [⟨"a", some ⟨1, 0⟩, []⟩, ⟨"root", some ⟨5, 0⟩, []⟩]
    = some [("root", some ⟨5, 0⟩, []), ("a", some ⟨1, 0⟩, [])] := by decide +kernel
example : exported .lastWins [] = some [("root", some ⟨1, 0⟩, [])] := by decide +kernel
/-- States are put together over all declarations. -/
example : exported .lastWins
      [⟨"a", some ⟨1, 0⟩, [⟨"x", none⟩, ⟨"y", none⟩]⟩, ⟨"a", none, [⟨"z", none⟩, ⟨"x", none⟩]⟩]
    = some [("root", some ⟨1, 0⟩, []), ("a", none, ["x", "y", "z"])] := by decide +kernel

end Tests

end TypedStyles
