import TypedStyles.CommandLine.OsString

/-!
# Arguments of the command line

The command takes the path of the metadata and some options.  An option is
written with two dashes and its name, or with one dash and its letter.  Its
value follows as the next argument, after an equals sign, or right after the
letter.  Letters may share a dash, and the first one that takes a value takes
the rest.  After two dashes alone every argument is a path.

Reading has two steps.  `items` says what each argument asks for, and `Given`
gathers it.  The first fault ends the reading, and so does a request for help
or for the version.  An option may be given only once.

Arguments are bytes.  Paths stay as they are, and the stylesheet must be a text.
-/

namespace TypedStyles.CommandLine

/-! ## What can be asked for -/

/-- How the source map is delivered. -/
inductive MapMode where
  | none
  /-- As a file beside the declaration. -/
  | sibling
  /-- Inside the declaration. -/
  | inline
deriving DecidableEq

/-- The mode of this name. -/
def MapMode.ofName? (name : OsString) : Option MapMode :=
  if name = .ofString "none" then some .none
  else if name = .ofString "sibling" then some .sibling
  else if name = .ofString "inline" then some .inline
  else Option.none

/-- An option with a value. -/
inductive Setting where
  /-- The stylesheet that mappings refer to. -/
  | source
  | out
  | map
deriving DecidableEq

/-- How messages call the option. -/
def Setting.label : Setting → String
  | .source => "--source"
  | .out => "--out"
  | .map => "--map"

/-- An option without a value. -/
inductive Switch where
  /-- The last declaration of a name decides its position. -/
  | lastWins
  | help
  | version
deriving DecidableEq

/-- How messages call the option. -/
def Switch.label : Switch → String
  | .lastWins => "--last-wins"
  | .help => "--help"
  | .version => "--version"

/-- An option of either kind. -/
inductive Flag where
  | setting (s : Setting)
  | switch (s : Switch)
deriving DecidableEq

/-- The option of this name. -/
def Flag.ofName? (name : OsString) : Option Flag :=
  if name = .ofString "source" then some (.setting .source)
  else if name = .ofString "out" then some (.setting .out)
  else if name = .ofString "map" then some (.setting .map)
  else if name = .ofString "last-wins" then some (.switch .lastWins)
  else if name = .ofString "help" then some (.switch .help)
  else if name = .ofString "version" then some (.switch .version)
  else none

/-- The option of this letter. -/
def Flag.ofLetter? (b : UInt8) : Option Flag :=
  if b = 's'.toUInt8 then some (.setting .source)
  else if b = 'o'.toUInt8 then some (.setting .out)
  else if b = 'h'.toUInt8 then some (.switch .help)
  else if b = 'V'.toUInt8 then some (.switch .version)
  else none

/-- Why a command line cannot be understood. -/
inductive UsageError where
  | unknown (argument : String)
  | missingValue (s : Setting)
  | unexpectedValue (s : Switch)
  | repeated (label : String)
  /-- The value of an option means nothing. -/
  | badValue (s : Setting) (value : OsString)
  | emptyPath
  | extraPath (argument : OsString)
  | missingPath
  | missingSource
deriving DecidableEq

/-- The wording of an error. -/
def UsageError.message : UsageError → String
  | .unknown a => "unexpected argument '" ++ a ++ "'"
  | .missingValue s => "a value is required for '" ++ s.label ++ "'"
  | .unexpectedValue s => "no value is expected for '" ++ s.label ++ "'"
  | .repeated label => "'" ++ label ++ "' cannot be used twice"
  | .badValue s v => "invalid value '" ++ v.display ++ "' for '" ++ s.label ++ "'"
  | .emptyPath => "the path of the metadata is empty"
  | .extraPath a => "unexpected argument '" ++ a.display ++ "'"
  | .missingPath => "the path of the metadata is required"
  | .missingSource => "'--source' is required"

/-! ## Items -/

/-- What an argument asks for. -/
inductive Item where
  | set (s : Setting) (value : OsString)
  | on (s : Switch)
  | path (p : OsString)
  /-- Something that cannot be understood. -/
  | fault (e : UsageError)
deriving DecidableEq

/-- What one argument asks for, and the option that waits for its value in the
next one. -/
structure Parsed where
  items : List Item
  /-- The option that waits for its value. -/
  waiting : Option Setting

/-- The byte that options begin with. -/
def dash : UInt8 := '-'.toUInt8

/-- The byte between an option and its value. -/
def equalsSign : UInt8 := '='.toUInt8

/-- Read an argument that begins with two dashes, without the dashes. -/
def parseLong (argument : List UInt8) : Parsed :=
  let name := OsString.mk (argument.takeWhile (· ≠ equalsSign))
  match Flag.ofName? name, argument.dropWhile (· ≠ equalsSign) with
  | none, _ => ⟨[.fault (.unknown ("--" ++ name.display))], none⟩
  | some (.setting s), [] => ⟨[], some s⟩
  | some (.setting s), _ :: value => ⟨[.set s ⟨value⟩], none⟩
  | some (.switch s), [] => ⟨[.on s], none⟩
  | some (.switch s), _ :: _ => ⟨[.fault (.unexpectedValue s)], none⟩

/-- The value that follows a letter.  An equals sign before it is left out. -/
def attachedValue (bytes : List UInt8) : OsString :=
  if bytes.head? = some equalsSign then ⟨bytes.tail⟩ else ⟨bytes⟩

/-- A letter that is no option, as a message shows it. -/
def unknownLetter (bytes : List UInt8) : UsageError :=
  .unknown (String.ofList ('-' :: (ofUtf8Lossy bytes).take 1))

/-- Read the letters that share a dash. -/
def parseLetters : List UInt8 → Parsed
  | [] => ⟨[], none⟩
  | b :: bs =>
      match Flag.ofLetter? b with
      | none => ⟨[.fault (unknownLetter (b :: bs))], none⟩
      | some (.switch s) =>
          let rest := parseLetters bs
          ⟨.on s :: rest.items, rest.waiting⟩
      | some (.setting s) =>
          if bs = [] then ⟨[], some s⟩ else ⟨[.set s (attachedValue bs)], none⟩
termination_by structural bytes => bytes

/-- Read one argument.  A dash alone is a path. -/
def parseArgument (argument : OsString) : Parsed :=
  match argument.bytes with
  | a :: b :: bs =>
      if a ≠ dash then ⟨[.path argument], none⟩
      else if b = dash then parseLong bs
      else parseLetters (b :: bs)
  | _ => ⟨[.path argument], none⟩

/-- An argument that can be the value of the option before it.  A dash alone
is a value. -/
def isValue (argument : OsString) : Bool :=
  argument.bytes = [dash] || argument.bytes.head? ≠ some dash

/-- What the arguments ask for, in turn. -/
def items : List OsString → List Item
  | [] => []
  | argument :: rest =>
      if argument = .ofString "--" then rest.map .path
      else
        let parsed := parseArgument argument
        match parsed.waiting with
        | none => parsed.items ++ items rest
        | some s =>
            match rest with
            | [] => parsed.items ++ [.fault (.missingValue s)]
            | value :: rest =>
                if isValue value then parsed.items ++ .set s value :: items rest
                else parsed.items ++ [.fault (.missingValue s)]
termination_by structural arguments => arguments

/-! ## Commands -/

/-- A generation that is asked for. -/
structure Command where
  metadata : OsString
  /-- The stylesheet that mappings refer to. -/
  source : String
  /-- The path of the declaration file, if it is not the usual one. -/
  out : Option OsString
  map : MapMode
  /-- The last declaration of a name decides its position. -/
  lastWins : Bool
deriving DecidableEq

/-- What a command line asks for. -/
inductive Request where
  | generate (c : Command)
  | help
  | version
deriving DecidableEq

/-- What was given so far. -/
structure Given where
  metadata : Option OsString
  source : Option String
  out : Option OsString
  map : Option MapMode
  lastWins : Bool
deriving DecidableEq

namespace Given

/-- Nothing was given yet. -/
def nothing : Given := ⟨none, none, none, none, false⟩

/-- Set an option to a value. -/
def set (g : Given) (s : Setting) (value : OsString) : Except UsageError Given :=
  match s with
  | .source =>
      if g.source.isSome then .error (.repeated s.label)
      else
        match value.text? with
        | none => .error (.badValue s value)
        | some text => .ok { g with source := some text }
  | .out =>
      if g.out.isSome then .error (.repeated s.label)
      else if value = ⟨[]⟩ then .error (.badValue s value)
      else .ok { g with out := some value }
  | .map =>
      if g.map.isSome then .error (.repeated s.label)
      else
        match MapMode.ofName? value with
        | none => .error (.badValue s value)
        | some mode => .ok { g with map := some mode }

/-- Set the path of the metadata. -/
def setPath (g : Given) (p : OsString) : Except UsageError Given :=
  if g.metadata.isSome then .error (.extraPath p)
  else if p = ⟨[]⟩ then .error .emptyPath
  else .ok { g with metadata := some p }

/-- The command, once all arguments were read. -/
def finish (g : Given) : Except UsageError Request :=
  match g.metadata, g.source with
  | none, _ => .error .missingPath
  | _, none => .error .missingSource
  | some metadata, some source =>
      .ok (.generate ⟨metadata, source, g.out, g.map.getD .sibling, g.lastWins⟩)

/-- Gather what is asked for. -/
def gather : Given → List Item → Except UsageError Request
  | g, [] => g.finish
  | _, .fault e :: _ => .error e
  | _, .on .help :: _ => .ok .help
  | _, .on .version :: _ => .ok .version
  | g, .on .lastWins :: rest =>
      if g.lastWins then .error (.repeated Switch.lastWins.label)
      else gather { g with lastWins := true } rest
  | g, .set s value :: rest =>
      match g.set s value with
      | .ok g => gather g rest
      | .error e => .error e
  | g, .path p :: rest =>
      match g.setPath p with
      | .ok g => gather g rest
      | .error e => .error e
termination_by structural _ rest => rest

end Given

/-- What the arguments of the command ask for. -/
def Request.ofArguments (arguments : List OsString) : Except UsageError Request :=
  Given.nothing.gather (items arguments)

/-! ## Tests -/

section Tests

/-- What some texts ask for as arguments. -/
def itemsOf (arguments : List String) : List Item := items (arguments.map .ofString)

/-- The value stands apart, after an equals sign, or after the letter. -/
example : itemsOf ["--source", "a", "-s=b", "-sc", "m"]
    = [.set .source (.ofString "a"), .set .source (.ofString "b"), .set .source (.ofString "c"),
      .path (.ofString "m")] := by decide +kernel
example : itemsOf ["-s", "-x"] = [.fault (.missingValue .source)] := by decide +kernel
example : itemsOf ["--", "-x"] = [.path (.ofString "-x")] := by decide +kernel
/-- The first request ends the reading. -/
example : (Request.ofArguments [.ofString "-hq"]).toOption = some .help := by decide +kernel
/-- A path need not be a text. -/
example : items [⟨[dash, 'o'.toUInt8, 0xff]⟩] = [.set .out ⟨[0xff]⟩] := by decide +kernel

end Tests

end TypedStyles.CommandLine
