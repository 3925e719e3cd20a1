import TypedStyles.Json.Literal

/-!
# Reading JSON

`Json.read?` reads a text as one JSON value, with spaces around it and around
its parts.  The text is read one character at a time.  The state of the reading
is the list of containers that are open, innermost first, and what is expected
or under way inside the innermost one.  When a value is complete, `deliver`
puts it where it belongs.

The recursion is over the characters alone.  So the reading ends on every text,
and the depth of nesting costs no depth of recursion.
-/

namespace TypedStyles.Json

/-- A container that is open while a value inside it is read. -/
inductive Frame where
  /-- An array and the items before the value, last first. -/
  | array (items : List Json)
  /-- An object, the members before the value, last first, and the key of the
  value. -/
  | object (members : List (Option String × Json)) (key : Option String)

/-- What is expected or under way inside the innermost container. -/
inductive Phase where
  /-- A value must begin. -/
  | value
  /-- An array was opened: its first item must begin, or it must close. -/
  | arrayStart
  /-- The array with these items, last first, goes on or closes. -/
  | arrayNext (items : List Json)
  /-- An object was opened: its first key must begin, or it must close. -/
  | objectStart
  /-- A key must begin, after these members, last first. -/
  | objectKey (members : List (Option String × Json))
  /-- The colon after a key must come. -/
  | objectColon (members : List (Option String × Json)) (key : Option String)
  /-- The object with these members, last first, goes on or closes. -/
  | objectNext (members : List (Option String × Json))
  /-- The rest of a fixed word must come, which then stands for the value. -/
  | word (rest : List Char) (value : Json)
  /-- A number is under way. -/
  | number (n : NumberState)
  /-- A string is under way. -/
  | string (s : StringState)
  /-- A key is under way, after these members, last first. -/
  | key (members : List (Option String × Json)) (s : StringState)
  /-- The whole value was read. -/
  | done (value : Json)

/-- The state of a reading. -/
structure Reading where
  /-- The open containers, innermost first. -/
  frames : List Frame
  /-- What is expected or under way. -/
  phase : Phase

namespace Reading

/-- The reading before the first character. -/
def start : Reading := ⟨[], .value⟩

/-- Put a complete value where it belongs. -/
def deliver (v : Json) : List Frame → Reading
  | [] => ⟨[], .done v⟩
  | .array items :: frames => ⟨frames, .arrayNext (v :: items)⟩
  | .object members key :: frames => ⟨frames, .objectNext ((key, v) :: members)⟩

/-- A character that may stand between the parts of a text. -/
def isSpace (c : Char) : Bool := c = ' ' || c = '\t' || c = '\n' || c = '\r'

/-- Begin a value with its first character. -/
def openValue? (frames : List Frame) (c : Char) : Option Reading :=
  if c = '[' then some ⟨frames, .arrayStart⟩
  else if c = '\x7b' then some ⟨frames, .objectStart⟩
  else if c = '"' then some ⟨frames, .string .opened⟩
  else if c = 't' then some ⟨frames, .word ['r', 'u', 'e'] (.bool true)⟩
  else if c = 'f' then some ⟨frames, .word ['a', 'l', 's', 'e'] (.bool false)⟩
  else if c = 'n' then some ⟨frames, .word ['u', 'l', 'l'] .null⟩
  else (NumberState.opened? c).map fun n => ⟨frames, .number n⟩

/-- Read a character between the parts of a text. -/
def between? (r : Reading) (c : Char) : Option Reading :=
  if isSpace c then some r
  else
    match r.phase with
    | .value => openValue? r.frames c
    | .arrayStart =>
        if c = ']' then some (deliver (.array []) r.frames)
        else openValue? (.array [] :: r.frames) c
    | .arrayNext items =>
        if c = ',' then some ⟨.array items :: r.frames, .value⟩
        else if c = ']' then some (deliver (.array items.reverse) r.frames)
        else none
    | .objectStart =>
        if c = '\x7d' then some (deliver (.object []) r.frames)
        else if c = '"' then some ⟨r.frames, .key [] .opened⟩
        else none
    | .objectKey members =>
        if c = '"' then some ⟨r.frames, .key members .opened⟩ else none
    | .objectColon members key =>
        if c = ':' then some ⟨.object members key :: r.frames, .value⟩ else none
    | .objectNext members =>
        if c = ',' then some ⟨r.frames, .objectKey members⟩
        else if c = '\x7d' then some (deliver (.object members.reverse) r.frames)
        else none
    | _ => none

/-- Read one character. -/
def step? (r : Reading) (c : Char) : Option Reading :=
  match r.phase with
  | .word rest v =>
      match rest with
      | [] => none
      | [d] => if c = d then some (deliver v r.frames) else none
      | d :: ds => if c = d then some ⟨r.frames, .word ds v⟩ else none
  | .number n =>
      match n.step? c with
      | some n => some ⟨r.frames, .number n⟩
      | none => n.number?.bind fun v => (deliver (.number v) r.frames).between? c
  | .string s =>
      match s.step c with
      | .more s => some ⟨r.frames, .string s⟩
      | .closed text => some (deliver (.string text) r.frames)
      | .refused => none
  | .key members s =>
      match s.step c with
      | .more s => some ⟨r.frames, .key members s⟩
      | .closed text => some ⟨r.frames, .objectColon members text⟩
      | .refused => none
  | _ => r.between? c

/-- Read the characters of a text in turn. -/
def run? : Reading → List Char → Option Reading
  | r, [] => some r
  | r, c :: cs =>
      match r.step? c with
      | some r => r.run? cs
      | none => none
termination_by structural _ cs => cs

/-- The value, if the text may end here.  A number at the end of a text has
nothing after it that would close it. -/
def finish? (r : Reading) : Option Json :=
  match r.frames, r.phase with
  | [], .done v => some v
  | [], .number n => n.number?.map .number
  | _, _ => none

end Reading

/-- The value of a JSON text, if it is one. -/
def read? (text : List Char) : Option Json :=
  (Reading.start.run? text).bind Reading.finish?

/-! ## Tests -/

example : read? " [1, true] ".toList
    = some (.array [.nat 1, .bool true]) := by rfl
/-- An escape may spell any character, also in a key. -/
example : read? "\x7b\"\\u0061\": null\x7d".toList
    = some (.object [(some "a", .null)]) := by rfl
/-- Two halves make a character, and one half makes none. -/
example : read? "\"\\ud83d\\ude00\"".toList = some (.text "😀") := by rfl
example : read? "\"\\ud83d\"".toList = some (.string none) := by rfl
example : read? "[1,]".toList = none := by rfl
example : read? "01".toList = none := by rfl

end TypedStyles.Json
