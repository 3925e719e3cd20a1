import TypedStyles.Text.Utf8

/-!
# Texts of the system

The system gives arguments and names of files as bytes.  Most of them are texts
in UTF-8, but they need not be.  A message shows them with replacement
characters (`OsString.display`), and so two of them can be shown alike.
-/

namespace TypedStyles.CommandLine

/-- An argument, a path or the name of a file. -/
structure OsString where
  bytes : List UInt8
deriving DecidableEq

namespace OsString

/-- The bytes of a text. -/
def ofString (s : String) : OsString := ⟨utf8 s.toList⟩

instance : Coe String OsString := ⟨ofString⟩

/-- The text that the bytes are, if they are one. -/
def text? (s : OsString) : Option String := (ofUtf8? s.bytes).map String.ofList

/-- The text that a message shows. -/
def display (s : OsString) : String := String.ofList (ofUtf8Lossy s.bytes)

end OsString

example : (OsString.mk [0xff, 0x2e, 0x64]).display = "\ufffd.d" := by decide +kernel
example : (OsString.mk [0xff, 0x2e, 0x64]).text? = none := by decide +kernel

end TypedStyles.CommandLine
