import TypedStyles.CommandLine.OsString

/-!
# Paths

A path is a row of names with slashes between them.  Empty names mean nothing.
A name of one dot means the directory itself, and one of two dots the
directory above.  A slash at the beginning starts from the root, and one at
the end asks for a directory.
-/

namespace TypedStyles.CommandLine

/-- A path, cut into its names. -/
structure Path where
  /-- The path starts from the root. -/
  absolute : Bool
  /-- The names that are not empty. -/
  names : List OsString
  /-- A slash ends the path. -/
  trailing : Bool
deriving DecidableEq

namespace Path

/-- The byte between two names. -/
def slash : UInt8 := '/'.toUInt8

/-- The name of the directory itself. -/
def here : OsString := .ofString "."

/-- The name of the directory above. -/
def above : OsString := .ofString ".."

/-- Cut bytes into the names of a path. -/
def ofOsString (s : OsString) : Path where
  absolute := s.bytes.head? = some slash
  names := ((s.bytes.splitOn slash).filter (· ≠ [])).map OsString.mk
  trailing := s.bytes.getLast? = some slash

/-- Cut a text into the names of a path. -/
def ofString (s : String) : Path := ofOsString (.ofString s)

/-- The names, as a message shows them. -/
def parts (p : Path) : List String := p.names.map OsString.display

/-- A name that stands for a directory that is already open. -/
def isDots (name : OsString) : Bool := name = here || name = above

/-- The name of the file that a path leads to, if its last name is not of dots. -/
def fileName? (p : Path) : Option OsString :=
  match (p.names.filter (· ≠ here)).getLast? with
  | none => none
  | some name => if name = above then none else some name

end Path

example : (Path.ofString "/a//b/./c.ts").parts = ["a", "b", ".", "c.ts"] := by decide +kernel
example : (Path.ofString "a/b/.").fileName? = some (.ofString "b") := by decide +kernel
example : (Path.ofString "a/..").fileName? = none := by decide +kernel

end TypedStyles.CommandLine
