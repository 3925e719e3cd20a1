import TypedStyles.CommandLine.Arguments
import TypedStyles.CommandLine.FileTree
import TypedStyles.Declaration.Generation

/-!
# Running the command

A command reads its metadata, generates the declaration and its source map, and
then writes its files.  `Command.plan` says what has to be written, once the
bytes of the metadata are known.  Nothing is written if there is no plan.
`FileTree.run` carries out a command in a tree of files.

The declaration is written before the source map.  If the source map cannot be
written, the declaration stays.

The path of the source map is made from the path of the declaration as a message
shows it, and from an ending.  If the path of the declaration is no text, the
source map goes to another name than that of the declaration and the ending.
-/

namespace TypedStyles.CommandLine

/-! ## Failures -/

/-- Why a command ends without its files. -/
inductive Failure where
  /-- The path of the source map leads to no name. -/
  | noFileName (path : OsString)
  | unreadable (path : OsString) (cause : FileError)
  | notText (path : OsString)
  | metadata (path : OsString) (cause : MetadataError)
  | generation (cause : SourceMapError)
  | unwritable (path : OsString) (cause : FileError)
deriving DecidableEq

namespace Failure

/-- What went wrong. -/
def headline : Failure → String
  | .noFileName path => "Output path has no file name: " ++ path.display
  | .unreadable path _ => "Failed to read metadata: " ++ path.display
  | .notText path => "Failed to read metadata: " ++ path.display
  | .metadata path _ => "Failed to read metadata: " ++ path.display
  | .generation e => e.message
  | .unwritable path _ => "Failed to write " ++ path.display

/-- Why it went wrong, if there is more to say. -/
def cause? : Failure → Option String
  | .noFileName _ => none
  | .unreadable _ e => some e.message
  | .notText _ => some "stream did not contain valid UTF-8"
  | .metadata _ e => some e.message
  | .generation _ => none
  | .unwritable _ e => some e.message

/-- The report of a failure. -/
def report (f : Failure) : String :=
  "Error: " ++ f.headline ++ "\n" ++
    match f.cause? with
    | none => ""
    | some cause => "\nCaused by:\n    " ++ cause ++ "\n"

end Failure

/-! ## Plans -/

/-- A file to be written. -/
structure Write where
  path : OsString
  text : String
deriving DecidableEq

namespace Command

/-- The path of the declaration file. -/
def outPath (c : Command) : OsString := c.out.getD (.ofString (c.source ++ ".d.ts"))

/-- The path of the source map. -/
def mapPath (c : Command) : OsString := .ofString (c.outPath.display ++ ".map")

/-- Which declaration of a name decides its position. -/
def duplicates (c : Command) : DuplicatePolicy := if c.lastWins then .lastWins else .firstWins

/-- How the declaration refers to the source map.  A source map in a file of its
own is called by the name of the file alone. -/
def delivery (c : Command) : Except Failure MapDelivery :=
  match c.map with
  | .none => .ok .none
  | .inline => .ok .inline
  | .sibling =>
      match (Path.ofOsString c.mapPath).fileName? with
      | some name => .ok (.sibling name.display)
      | none => .error (.noFileName c.mapPath)

/-- The options of the generation. -/
def options (c : Command) : Except Failure Options :=
  c.delivery.map fun delivery => ⟨c.source, c.duplicates, delivery⟩

/-- The text of the metadata, from its bytes. -/
def metadataText (c : Command) : Except FileError (List UInt8) → Except Failure String
  | .error e => .error (.unreadable c.metadata e)
  | .ok bytes =>
      match ofUtf8? bytes with
      | some text => .ok (String.ofList text)
      | none => .error (.notText c.metadata)

/-- The files of an output, in the order in which they are written. -/
def writes (c : Command) (out : Output) : List Write :=
  ⟨c.outPath, out.referencedText⟩ ::
    match c.map with
    | .sibling => [⟨c.mapPath, out.sourceMapText⟩]
    | _ => []

/-- What has to be written, for the bytes of the metadata. -/
def plan (c : Command) (bytes : Except FileError (List UInt8)) : Except Failure (List Write) := do
  let options ← c.options
  let text ← c.metadataText bytes
  let metadata ← (Metadata.ofText options.duplicates text).mapError (.metadata c.metadata)
  let out ← (metadata.generate options).mapError .generation
  return c.writes out

end Command

/-! ## Runs -/

/-- How a run ends. -/
structure Outcome where
  tree : FileTree
  /-- Why the run failed, if it did. -/
  failure : Option Failure
deriving DecidableEq

namespace FileTree

/-- Write files in turn, up to the first that cannot be written. -/
def writeAll (working : List OsString) : FileTree → List Write → Outcome
  | t, [] => ⟨t, none⟩
  | t, w :: ws =>
      match t.write working w.path (utf8 w.text.toList) with
      | .ok t => writeAll working t ws
      | .error e => ⟨t, some (.unwritable w.path e)⟩
termination_by structural _ ws => ws

/-- Carry out a command. -/
def run (t : FileTree) (working : List OsString) (c : Command) : Outcome :=
  match c.plan (t.read working c.metadata) with
  | .ok ws => t.writeAll working ws
  | .error f => ⟨t, some f⟩

end FileTree

/-- How the program ends. -/
inductive Exit where
  | success
  | failed (f : Failure)
  | usage (e : UsageError)
deriving DecidableEq

/-- The number that the program ends with. -/
def Exit.code : Exit → UInt32
  | .success => 0
  | .failed _ => 1
  | .usage _ => 2

/-- The whole program: the files after it, and how it ends. -/
def FileTree.runProgram (t : FileTree) (working arguments : List OsString) : FileTree × Exit :=
  match Request.ofArguments arguments with
  | .error e => (t, .usage e)
  | .ok .help => (t, .success)
  | .ok .version => (t, .success)
  | .ok (.generate c) =>
      let outcome := t.run working c
      match outcome.failure with
      | none => (outcome.tree, .success)
      | some f => (outcome.tree, .failed f)

/-- The whole program, where the working directory and the arguments are texts. -/
def FileTree.runArguments (t : FileTree) (working arguments : List String) : FileTree × Exit :=
  t.runProgram (working.map .ofString) (arguments.map .ofString)

end TypedStyles.CommandLine
