import TypedStyles.Text.Position

/-!
# Symbols of a stylesheet

A stylesheet exports names of four kinds: classes, stylesheet variables, custom
properties and keyframes.  A class also has states, which are names of their
own.  A name may carry the position where it is declared.

A `CompiledSheet` is what a compiler reports: declarations in source order,
where a name may be declared more than once and parts may be missing.  A
`Metadata` is the surface that a stylesheet exports: one record for each name,
sorted by kind.
-/

namespace TypedStyles

/-- What a name stands for. -/
inductive SymbolKind where
  | styleClass
  | state
  /-- A stylesheet variable. -/
  | stVar
  /-- A custom property. -/
  | cssVar
  | keyframes
deriving DecidableEq

/-- How texts call the kind. -/
def SymbolKind.label : SymbolKind → String
  | .styleClass => "class"
  | .state => "state"
  | .stVar => "st-var"
  | .cssVar => "css-var"
  | .keyframes => "keyframes"

/-- A name with the position of its declaration, if that is known. -/
structure Named where
  name : String
  /-- The position of the declaration. -/
  position : Option Position
deriving DecidableEq

/-- A class with its states. -/
structure StyleClass where
  name : String
  position : Option Position
  /-- The states, in the order in which they are declared. -/
  states : List Named
deriving DecidableEq

/-- The name and the position of a class. -/
def StyleClass.named (c : StyleClass) : Named := ⟨c.name, c.position⟩

/-! ## Declarations -/

/-- One declaration in a stylesheet. -/
inductive Symbol where
  /-- A class and the states that this declaration gives it. -/
  | styleClass (c : StyleClass)
  | stVar (n : Named)
  | cssVar (n : Named)
  | keyframes (n : Named)
deriving DecidableEq

namespace Symbol

/-- The class that is declared, if it is one. -/
def class? : Symbol → Option StyleClass
  | .styleClass c => some c
  | _ => none

/-- The stylesheet variable that is declared, if it is one. -/
def stVar? : Symbol → Option Named
  | .stVar n => some n
  | _ => none

/-- The custom property that is declared, if it is one. -/
def cssVar? : Symbol → Option Named
  | .cssVar n => some n
  | _ => none

/-- The keyframes rule that is declared, if it is one. -/
def keyframes? : Symbol → Option Named
  | .keyframes n => some n
  | _ => none

end Symbol

/-- A stylesheet as its compiler reports it. -/
structure CompiledSheet where
  nameSpace : Option String
  /-- The name of the root class, if it is not the usual one. -/
  root : Option String
  /-- The declarations, in source order. -/
  symbols : Option (List Symbol)
deriving DecidableEq

/-! ## The exported surface -/

/-- The names that a stylesheet exports. -/
structure Metadata where
  nameSpace : String
  /-- The classes, the root class first. -/
  classes : List StyleClass
  stVars : List Named
  cssVars : List Named
  keyframes : List Named
deriving DecidableEq

namespace Metadata

/-- The first class of this name. -/
def class? (m : Metadata) (name : String) : Option StyleClass :=
  m.classes.find? fun c => c.name = name

/-- The number of names, states counted too. -/
def symbolCount (m : Metadata) : Nat :=
  (m.classes.flatMap fun c => c.named :: c.states).length + m.stVars.length + m.cssVars.length +
    m.keyframes.length

end Metadata

end TypedStyles
