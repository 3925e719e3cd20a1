import TypedStyles.CommandLine.Path

/-!
# Files and directories

A `FileTree` holds files and directories by their names from the root.  Paths
are followed from a working directory.  Every name but the last must lead into
a directory.  `read` gives the bytes of a file, and `write` makes a file or
replaces its bytes.  A failed write changes nothing.

There are no links, so two dots lead back the way that the path came.
-/

namespace TypedStyles.CommandLine

/-- Why a file cannot be read or written. -/
inductive FileError where
  | notFound
  | isDirectory
  | notDirectory
  | nameTooLong
  /-- Any other cause, in the words of the system. -/
  | other (message : String)
deriving DecidableEq

/-- The wording of an error. -/
def FileError.message : FileError → String
  | .notFound => "No such file or directory (os error 2)"
  | .isDirectory => "Is a directory (os error 21)"
  | .notDirectory => "Not a directory (os error 20)"
  | .nameTooLong => "File name too long (os error 36)"
  | .other m => m

/-- What a name stands for. -/
inductive Node where
  | directory
  | file (bytes : List UInt8)
deriving DecidableEq

/-- Files and directories, each with its names from the root. -/
structure FileTree where
  /-- The nodes.  Of two nodes with the same names the first one counts. -/
  nodes : List (List OsString × Node)
deriving DecidableEq

namespace FileTree

/-- The tree that holds the root alone. -/
def empty : FileTree := ⟨[]⟩

/-- The node with these names.  The root is always there. -/
def node? (t : FileTree) (names : List OsString) : Option Node :=
  if names = [] then some .directory else t.nodes.lookup names

/-- Put a node in the place of any node with the same names. -/
def put (t : FileTree) (names : List OsString) (n : Node) : FileTree :=
  ⟨(names, n) :: t.nodes.filter (·.1 ≠ names)⟩

/-- Add a directory and all directories above it.  The names are texts. -/
def addDirectory (t : FileTree) (names : List String) : FileTree :=
  let names := names.map OsString.ofString
  (List.range names.length).foldl (fun t n => t.put (names.take (n + 1)) .directory) t

/-- Add a file and all directories above it. -/
def addFile (t : FileTree) (names : List String) (bytes : List UInt8) : FileTree :=
  (t.addDirectory names.dropLast).put (names.map .ofString) (.file bytes)

/-- A node that was put is there. -/
theorem node?_put_self (t : FileTree) (names : List OsString) (n : Node) (h : names ≠ []) :
    (t.put names n).node? names = some n := by
  simp [node?, put, h]

/-- Taking out the nodes with some names keeps the nodes with other names. -/
theorem lookup_filter_ne (names other : List OsString) (h : other ≠ names) :
    ∀ nodes : List (List OsString × Node),
      (nodes.filter (·.1 ≠ names)).lookup other = nodes.lookup other
  | [] => rfl
  | (key, n) :: nodes => by
      have ih := lookup_filter_ne names other h nodes
      by_cases hk : key = names
      · have hne : (other == key) = false := by simpa [hk] using h
        rw [List.filter_cons_of_neg (by simp [hk]), ih, List.lookup_cons, hne]
      · rw [List.filter_cons_of_pos (by simp [hk]), List.lookup_cons, List.lookup_cons, ih]

/-- Putting a node keeps every node with other names. -/
theorem node?_put_of_ne (t : FileTree) (names other : List OsString) (n : Node)
    (h : other ≠ names) : (t.put names n).node? other = t.node? other := by
  have hne : (other == names) = false := by simpa using h
  rw [node?, node?, put, List.lookup_cons, hne]
  simp only [lookup_filter_ne names other h]

/-! ## Following paths -/

/-- The node of a name in a directory.  A name has at most 255 bytes. -/
def child? (t : FileTree) (directory : List OsString) (name : OsString) :
    Except FileError (Option Node) :=
  if 255 < name.bytes.length then .error .nameTooLong
  else .ok (t.node? (directory ++ [name]))

/-- Go from a directory along one name of a path, into a directory. -/
def enter (t : FileTree) (directory : List OsString) (name : OsString) :
    Except FileError (List OsString) :=
  if name = Path.here then .ok directory
  else if name = Path.above then .ok directory.dropLast
  else
    match t.child? directory name with
    | .error e => .error e
    | .ok none => .error .notFound
    | .ok (some (.file _)) => .error .notDirectory
    | .ok (some .directory) => .ok (directory ++ [name])

/-- Go along some names of a path in turn. -/
def enterAll (t : FileTree) (directory names : List OsString) :
    Except FileError (List OsString) :=
  names.foldlM t.enter directory

/-- Where a path leads. -/
inductive Target where
  /-- To a directory by dots or to the root, or nowhere by the empty path. -/
  | dots
  /-- To this name in this directory. -/
  | entry (directory : List OsString) (name : OsString)
deriving DecidableEq

/-- Follow a path from a working directory up to its last name. -/
def follow (t : FileTree) (working : List OsString) (p : Path) : Except FileError Target :=
  let start := if p.absolute then [] else working
  match p.names.getLast? with
  | none => if p.absolute then .ok .dots else .error .notFound
  | some last =>
      match t.enterAll start p.names.dropLast with
      | .error e => .error e
      | .ok directory => if Path.isDots last then .ok .dots else .ok (.entry directory last)

/-- The most bytes that a path may have. -/
def longestPath : Nat := 4095

/-- Follow the bytes of a path, which must not be too many. -/
def locate (t : FileTree) (working : List OsString) (path : OsString) :
    Except FileError Target :=
  if longestPath < path.bytes.length then .error .nameTooLong
  else t.follow working (.ofOsString path)

/-! ## Reading and writing -/

/-- The bytes of a file. -/
def read (t : FileTree) (working : List OsString) (path : OsString) :
    Except FileError (List UInt8) :=
  match t.locate working path with
  | .error e => .error e
  | .ok .dots => .error .isDirectory
  | .ok (.entry directory name) =>
      match t.child? directory name with
      | .error e => .error e
      | .ok none => .error .notFound
      | .ok (some .directory) => .error .isDirectory
      | .ok (some (.file bytes)) =>
          if (Path.ofOsString path).trailing then .error .notDirectory else .ok bytes

/-- The tree with a file of these bytes.  A slash at the end asks for a
directory, which cannot be written. -/
def write (t : FileTree) (working : List OsString) (path : OsString) (bytes : List UInt8) :
    Except FileError FileTree :=
  match t.locate working path with
  | .error e => .error e
  | .ok .dots => .error .isDirectory
  | .ok (.entry directory name) =>
      if (Path.ofOsString path).trailing then .error .isDirectory
      else
        match t.child? directory name with
        | .error e => .error e
        | .ok (some .directory) => .error .isDirectory
        | .ok _ => .ok (t.put (directory ++ [name]) (.file bytes))

/-! ## Changes -/

/-- The files of a tree below a directory that another tree lacks or has with
other bytes, each with its path from the directory as a message shows it, in the
order of paths. -/
def changes (before after : FileTree) (directory : List String) :
    List (String × List UInt8) :=
  let directory := directory.map OsString.ofString
  let changed := after.nodes.filterMap fun (names, n) =>
    match n with
    | .directory => none
    | .file bytes =>
        if directory.isPrefixOf names ∧ before.node? names ≠ some n then
          some ("/".intercalate ((names.drop directory.length).map OsString.display), bytes)
        else none
  changed.mergeSort fun a b => a.1 ≤ b.1

/-! ## Tests -/

section Tests

/-- A tree with an empty directory `a` and a file `m`. -/
def smallTree : FileTree := (FileTree.empty.addDirectory ["w", "a"]).addFile ["w", "m"] [1]

example : (smallTree.read ["w"] "a/../m").toOption = some [1] := by decide +kernel
/-- Two dots lead back only from a directory that is there. -/
example : (smallTree.read ["w"] "b/../m").toOption = none := by decide +kernel
example : (smallTree.write ["w"] "a/" []).toOption = none := by decide +kernel
example : (smallTree.write ["w"] "a/x" [2]).toOption.map (fun t => smallTree.changes t ["w"])
    = some [("a/x", [2])] := by decide +kernel

end Tests

end FileTree

end TypedStyles.CommandLine
