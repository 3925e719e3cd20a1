import Mathlib.Data.List.Basic
import Mathlib.Data.List.Induction
import TypedStyles.CommandLine.Path
import TypedStyles.Proofs.Text.Position
import TypedStyles.Proofs.Text.Utf8

/-!
# The last name of a path

Every path is cut behind its last slash into a folder and a last name, in one way
(`Path.exists_cut`, `Path.Cut.unique`).  If the last name is not empty, it is the
last of the names of the path, and all other names are those of the folder
(`Path.Cut.names`).  So what follows a path and holds no slash changes the last
name alone.

Bytes and texts are cut alike, whether a text is written as bytes
(`Path.Cut.utf8_cut`) or bytes are shown as a text (`Path.Cut.ofUtf8Lossy_eq`).
-/

namespace TypedStyles.CommandLine

/-! ## Texts among the bytes -/

namespace OsString

instance : Append OsString := ⟨fun s s' => ⟨s.bytes ++ s'.bytes⟩⟩

/-- The bytes are a text. -/
def IsText (s : OsString) : Prop := ∃ text : String, s = .ofString text

theorem append_def (s s' : OsString) : s ++ s' = ⟨s.bytes ++ s'.bytes⟩ := rfl

theorem ofString_append (s s' : String) : ofString (s ++ s') = ofString s ++ ofString s' := by
  rw [ofString, String.toList_append, utf8_append]
  rfl

/-- A text is shown as it is. -/
theorem display_ofString (s : String) : (ofString s).display = s := by
  rw [display, ofString, ofUtf8Lossy_utf8, String.ofList_toList]

theorem ofString_inj {s s' : String} : ofString s = ofString s' ↔ s = s' := by
  constructor
  · intro h
    rw [← display_ofString s, h, display_ofString]
  · rintro rfl
    rfl

theorem text?_eq_some_iff {s : OsString} {text : String} :
    s.text? = some text ↔ s = .ofString text := by
  rw [text?, Option.map_eq_some_iff]
  constructor
  · rintro ⟨chars, hchars, rfl⟩
    rw [ofString, String.toList_ofList, ← ofUtf8?_eq_some_iff.mp hchars]
  · rintro rfl
    exact ⟨text.toList, ofUtf8?_utf8 _, String.ofList_toList⟩

end OsString

namespace Path

/-! ## Cuts -/

/-- A path is cut behind its last separator. -/
structure Cut {α : Type} (separator : α) (path folder last : List α) : Prop where
  eq : path = folder ++ last
  folder : folder = [] ∨ folder.getLast? = some separator
  last : separator ∉ last

theorem exists_cut {α : Type} (separator : α) (path : List α) :
    ∃ folder last, Cut separator path folder last := by
  induction path using List.reverseRecOn with
  | nil => exact ⟨[], [], rfl, Or.inl rfl, List.not_mem_nil⟩
  | append_singleton path a ih =>
      by_cases ha : a = separator
      · refine ⟨path ++ [a], [], by rw [List.append_nil], Or.inr ?_, List.not_mem_nil⟩
        rw [List.getLast?_concat, ha]
      · obtain ⟨folder, last, heq, hfolder, hlast⟩ := ih
        refine ⟨folder, last ++ [a], ?_, hfolder, ?_⟩
        · rw [heq, List.append_assoc]
        · rw [List.mem_append, List.mem_singleton]
          exact fun h => h.elim hlast fun h => ha h.symm

namespace Cut

section Lists

variable {α : Type} {separator : α} {path folder last folder' last' : List α}

theorem append (h : Cut separator path folder last) (suffix : List α)
    (hsuffix : separator ∉ suffix) : Cut separator (path ++ suffix) folder (last ++ suffix) := by
  refine ⟨by rw [h.eq, List.append_assoc], h.folder, ?_⟩
  rw [List.mem_append]
  exact fun hmem => hmem.elim h.last hsuffix

/-- No folder is longer than another one of the same path. -/
theorem folder_prefix (h : Cut separator path folder last) (h' : Cut separator path folder' last') :
    folder <+: folder' := by
  rcases h.folder with rfl | hfolder
  · exact List.nil_prefix
  · obtain ⟨init, rfl⟩ := List.getLast?_eq_some_iff.mp hfolder
    have hsplit := List.append_eq_append_iff.mp (h.eq.symm.trans h'.eq)
    rcases hsplit with ⟨more, rfl, -⟩ | ⟨more, hmore, hlast⟩
    · exact List.prefix_append _ more
    · cases more using List.reverseRecOn with
      | nil => exact (hmore.trans (List.append_nil _)) ▸ List.prefix_rfl
      | append_singleton more a =>
          rw [← List.append_assoc] at hmore
          have ha : separator = a := List.singleton_inj.mp (List.append_inj_right' hmore rfl)
          exact absurd (by simp [hlast, ha]) h'.last

theorem unique (h : Cut separator path folder last) (h' : Cut separator path folder' last') :
    folder = folder' ∧ last = last' := by
  have hfolder : folder = folder' :=
    (h.folder_prefix h').eq_of_length_le (h'.folder_prefix h).length_le
  have hpaths : folder ++ last = folder ++ last' := by rw [← h.eq, h'.eq, hfolder]
  exact ⟨hfolder, List.append_cancel_left hpaths⟩

end Lists

/-! ## Bytes and texts -/

theorem ofUtf8Lossy_append_slash (before after : List UInt8) :
    ofUtf8Lossy (before ++ slash :: after) = ofUtf8Lossy before ++ '/' :: ofUtf8Lossy after :=
  ofUtf8Lossy_append_cons before (c := '/') (by decide) after

theorem utf8_cut {text folder last : List Char} (h : Cut '/' text folder last) :
    Cut slash (utf8 text) (utf8 folder) (utf8 last) := by
  refine ⟨by rw [h.eq, utf8_append], h.folder.imp (fun hnil => ?_) (fun hslash => ?_), ?_⟩
  · rw [hnil]
    rfl
  · obtain ⟨init, rfl⟩ := List.getLast?_eq_some_iff.mp hslash
    rw [utf8_append]
    exact List.getLast?_concat
  · exact fun hmem => h.last ((toUInt8_mem_utf8_iff (by decide)).mp hmem)

section Bytes

variable {path folder last : List UInt8} (h : Cut slash path folder last)
include h

/-- The folder and the last name are shown apart. -/
theorem ofUtf8Lossy_eq : ofUtf8Lossy path = ofUtf8Lossy folder ++ ofUtf8Lossy last := by
  rw [h.eq]
  rcases h.folder with rfl | hslash
  · rfl
  · obtain ⟨init, rfl⟩ := List.getLast?_eq_some_iff.mp hslash
    rw [List.append_assoc, List.singleton_append, ofUtf8Lossy_append_slash,
      ofUtf8Lossy_append_slash, List.append_assoc]
    rfl

theorem ofUtf8Lossy_folder :
    ofUtf8Lossy folder = [] ∨ (ofUtf8Lossy folder).getLast? = some '/' := by
  refine h.folder.imp (fun hnil => ?_) (fun hslash => ?_)
  · rw [hnil]
    rfl
  · obtain ⟨init, rfl⟩ := List.getLast?_eq_some_iff.mp hslash
    rw [ofUtf8Lossy_append_slash]
    exact List.getLast?_concat

/-- No last name is the one that is shown with an ending. -/
theorem ne_utf8_append {folder' last' suffix : List Char}
    (hshown : Cut '/' (ofUtf8Lossy path) folder' last') (hsuffix : suffix ≠ []) :
    last ≠ utf8 (last' ++ suffix) := by
  rintro rfl
  have hslash : '/' ∉ last' ++ suffix := fun hmem =>
    h.last ((toUInt8_mem_utf8_iff (by decide)).mpr hmem)
  have hcut : Cut '/' (ofUtf8Lossy path) (ofUtf8Lossy folder) (last' ++ suffix) :=
    ⟨by rw [h.ofUtf8Lossy_eq, ofUtf8Lossy_utf8], h.ofUtf8Lossy_folder, hslash⟩
  exact hsuffix (List.append_right_eq_self.mp (hcut.unique hshown).2)

end Bytes

/-! ## Names -/

section Names

variable {path : OsString} {folder last : List UInt8} (h : Cut slash path.bytes folder last)
include h

theorem absolute : (ofOsString path).absolute = (ofOsString ⟨folder⟩).absolute := by
  rw [ofOsString, ofOsString, decide_eq_decide, h.eq]
  rcases h.folder with rfl | hslash
  · constructor
    · exact fun hhead => absurd (List.mem_of_head? hhead) h.last
    · exact nofun
  · obtain ⟨init, rfl⟩ := List.getLast?_eq_some_iff.mp hslash
    cases init with
    | nil => rfl
    | cons b init => rfl

variable (hlast : last ≠ [])
include hlast

theorem trailing : (ofOsString path).trailing = false := by
  rw [ofOsString, decide_eq_false_iff_not, h.eq, List.getLast?_append_of_ne_nil _ hlast]
  exact fun hslash => h.last (List.mem_of_getLast? hslash)

/-- If the last name is not empty, it follows the names of the folder. -/
theorem names : (ofOsString path).names = (ofOsString ⟨folder⟩).names ++ [⟨last⟩] := by
  have hself : ([last].filter (· ≠ [])).map OsString.mk = [⟨last⟩] := by
    rw [List.filter_cons_of_pos (by simpa using hlast), List.filter_nil, List.map_singleton]
  have hsplit := splitOn_of_not_mem h.last
  rw [ofOsString, ofOsString, h.eq]
  rcases h.folder with rfl | hslash
  · rw [List.nil_append, hsplit, hself]
    rfl
  · obtain ⟨init, rfl⟩ := List.getLast?_eq_some_iff.mp hslash
    have hempty : ([[]] : List (List UInt8)).filter (· ≠ []) = [] := rfl
    rw [List.append_assoc, List.singleton_append, splitOn_append_cons, splitOn_append_cons,
      hsplit, List.splitOn_nil, List.filter_append, List.filter_append, hempty, List.append_nil,
      List.map_append, hself]

/-- A last name that is no dots is the name of a file. -/
theorem fileName? (hdots : isDots ⟨last⟩ = false) :
    (ofOsString path).fileName? = some ⟨last⟩ := by
  obtain ⟨hhere, habove⟩ : OsString.mk last ≠ here ∧ OsString.mk last ≠ above := by
    simpa [isDots] using hdots
  have hfilter : ([OsString.mk last].filter (· ≠ here)) = [⟨last⟩] := by simpa using hhere
  rw [Path.fileName?, h.names hlast, List.filter_append, hfilter, List.getLast?_concat]
  exact if_neg habove

end Names

end Cut

end Path

end TypedStyles.CommandLine
