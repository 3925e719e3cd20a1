import TypedStyles.CommandLine.Run

/-!
# The program

The program reads its arguments, asks the system for the metadata, and writes
the files of the plan.  What is written and when it fails is decided by
`Command.plan`.

Here the arguments are texts, and so are the paths that the system is asked for.
-/

namespace TypedStyles.CommandLine

/-- How the command is used. -/
def usageText : String :=
  "Generate typed declarations for a compiled stylesheet\n\n" ++
  "Usage: st-dts [OPTIONS] --source <SOURCE> <METADATA>\n\n" ++
  "Arguments:\n" ++
  "  <METADATA>             Resolved stylesheet metadata (JSON)\n\n" ++
  "Options:\n" ++
  "  -s, --source <SOURCE>  Path of the stylesheet, recorded in the source map\n" ++
  "  -o, --out <OUT>        Declaration file to write (defaults to <source>.d.ts)\n" ++
  "      --map <MAP>        How the source map is delivered: none, sibling or inline\n" ++
  "      --last-wins        Let the last declaration of a repeated symbol supply its position\n" ++
  "  -h, --help             Print help\n" ++
  "  -V, --version          Print version\n"

/-- The name and the version of the program. -/
def versionText : String := "st-dts 0.1.0\n"

/-- The cause of a failure of the system.  A file in the place of a directory has
the code 20, which some calls give with a minus sign. -/
def FileError.ofIO (e : IO.Error) : FileError :=
  match e with
  | .noFileOrDirectory _ _ _ => .notFound
  | .inappropriateType _ code _ =>
      if code = 20 ∨ code = -20 then .notDirectory else .isDirectory
  | e => .other (toString e)

/-- Ask the system for the bytes of a file. -/
def readBytes (path : OsString) : IO (Except FileError (List UInt8)) := do
  try
    let bytes ← IO.FS.readBinFile path.display
    return .ok bytes.data.toList
  catch e => return .error (.ofIO e)

/-- Ask the system to write files in turn, up to the first that cannot be
written. -/
def writeFiles : List Write → IO (Option Failure)
  | [] => return none
  | w :: ws => do
      try
        IO.FS.writeFile w.path.display w.text
      catch e => return some (.unwritable w.path (.ofIO e))
      writeFiles ws

/-- Carry out a command in the files of the system. -/
def runCommand (c : Command) : IO UInt32 := do
  let failure ←
    match c.plan (← readBytes c.metadata) with
    | .ok ws => writeFiles ws
    | .error f => pure (some f)
  match failure with
  | none => return Exit.success.code
  | some f =>
      IO.eprint f.report
      return (Exit.failed f).code

end TypedStyles.CommandLine

open TypedStyles.CommandLine in
/-- The program. -/
def main (arguments : List String) : IO UInt32 := do
  match Request.ofArguments (arguments.map .ofString) with
  | .error e =>
      IO.eprint ("error: " ++ e.message ++ "\n\nFor more information, try '--help'.\n")
      return (Exit.usage e).code
  | .ok .help =>
      IO.print usageText
      return Exit.success.code
  | .ok .version =>
      IO.print versionText
      return Exit.success.code
  | .ok (.generate c) => runCommand c
