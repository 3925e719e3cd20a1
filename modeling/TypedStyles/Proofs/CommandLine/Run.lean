import TypedStyles.Proofs.CommandLine.Arguments
import TypedStyles.Proofs.CommandLine.Writing
import TypedStyles.Proofs.Declaration.EndToEnd
import TypedStyles.Proofs.Declaration.Reference
import TypedStyles.Proofs.Stylesheet.Interchange

/-!
# What a run of the command leaves behind

The plan of a command consists of the declaration and, if it is asked for, the
source map in a file of its own (`Command.plan_eq_ok_iff`).  The name of this file
is found for every path of the declaration (`Command.delivery_of_cut`), and the
file is another one than the declaration (`Command.pairwise_writes`).  A run writes
the files of its plan in turn.

So a run that succeeds leaves the output of the stylesheet that it read, and one
that fails leaves nothing, or the declaration alone if the source map cannot be
written (`FileTree.runProgram_generate`).

The source map stands beside the declaration if the path of the declaration is a
text, and the declaration refers to it if its name has no line break
(`Command.Refers`).  Otherwise the reference leads to another file.
-/

namespace TypedStyles.CommandLine

/-! ## Plans -/

/-- How a declaration refers to its source map, where `file` is the name of the source map. -/
def MapMode.delivery (file : String) : MapMode → MapDelivery
  | .none => .none
  | .sibling => .sibling file
  | .inline => .inline

namespace Command

/-- The tree holds a stylesheet at the path of the metadata, and this output is generated from it
with the options of the command.  `file` is the name of the source map. -/
def Yields (c : Command) (t : FileTree) (working : List OsString) (file : String)
    (out : Output) : Prop :=
  ∃ bytes text sheet, t.read working c.metadata = .ok bytes ∧ ofUtf8? bytes = some text ∧
    CompiledSheet.parse? (String.ofList text) = some sheet ∧
    sheet.generate ⟨c.source, if c.lastWins then .lastWins else .firstWins, c.map.delivery file⟩
      = .ok out

/-! ## The name of the source map -/

variable {c : Command} {t : FileTree} {working : List OsString} {folder : List Char} {name : String}

theorem length_append_map (name : String) : (name ++ ".map").length = name.length + 4 :=
  String.length_append name ".map"

theorem append_map_ne (name : String) {other : String} (h : other.length < 4) :
    name ++ ".map" ≠ other := by
  rintro rfl
  rw [length_append_map] at h
  omega

theorem isDots_append_map (name : String) : Path.isDots (.ofString (name ++ ".map")) = false := by
  rw [Path.isDots, Bool.or_eq_false_iff, decide_eq_false_iff_not, decide_eq_false_iff_not,
    Path.here, Path.above, OsString.ofString_inj, OsString.ofString_inj]
  exact ⟨append_map_ne name (by decide), append_map_ne name (by decide)⟩

theorem bytes_append_map_ne_nil (name : String) :
    (OsString.ofString (name ++ ".map")).bytes ≠ [] := by
  intro h
  have hempty : OsString.ofString (name ++ ".map") = .ofString "" := congrArg OsString.mk h
  exact append_map_ne name (by decide) (OsString.ofString_inj.mp hempty)

theorem toList_display (s : OsString) : s.display.toList = ofUtf8Lossy s.bytes :=
  String.toList_ofList

/-- The path of the declaration is cut, as a message shows it. -/
theorem exists_cut (c : Command) :
    ∃ folder, ∃ name : String, Path.Cut '/' c.outPath.display.toList folder name.toList := by
  obtain ⟨folder, name, hcut⟩ := Path.exists_cut '/' c.outPath.display.toList
  exact ⟨folder, String.ofList name, by rw [String.toList_ofList]; exact hcut⟩

section Cut

variable (hcut : Path.Cut '/' c.outPath.display.toList folder name.toList)
include hcut

/-- The source map is called by the name of the declaration, as it is shown, and an ending. -/
theorem cut_mapPath :
    Path.Cut Path.slash c.mapPath.bytes (utf8 folder)
      (OsString.ofString (name ++ ".map")).bytes := by
  have hmap := (hcut.append ".map".toList (by decide)).utf8_cut
  rw [← String.toList_append, ← String.toList_append] at hmap
  exact hmap

theorem fileName?_mapPath :
    (Path.ofOsString c.mapPath).fileName? = some (.ofString (name ++ ".map")) :=
  (cut_mapPath hcut).fileName? (bytes_append_map_ne_nil name) (isDots_append_map name)

/-- The name of the source map is found for every path of the declaration. -/
theorem delivery_of_cut : c.delivery = .ok (c.map.delivery (name ++ ".map")) := by
  rw [delivery, fileName?_mapPath hcut]
  cases c.map with
  | none => rfl
  | sibling => simp only [MapMode.delivery, OsString.display_ofString]
  | inline => rfl

end Cut

/-! ## Plans of a command -/

theorem options_of_cut (hcut : Path.Cut '/' c.outPath.display.toList folder name.toList) :
    c.options = .ok ⟨c.source, c.duplicates, c.map.delivery (name ++ ".map")⟩ := by
  rw [options, delivery_of_cut hcut]
  rfl

theorem metadataText_eq_ok_iff {read : Except FileError (List UInt8)} {text : String} :
    c.metadataText read = .ok text ↔ ∃ bytes chars, read = .ok bytes ∧
      ofUtf8? bytes = some chars ∧ text = String.ofList chars := by
  cases read with
  | error e => exact ⟨nofun, fun ⟨_, _, h, _⟩ => nomatch h⟩
  | ok bytes =>
      rw [metadataText]
      constructor
      · intro h
        split at h
        next chars hchars => exact ⟨bytes, chars, rfl, hchars, (Except.ok.inj h).symm⟩
        next => cases h
      · rintro ⟨_, chars, hbytes, hchars, rfl⟩
        rw [← Except.ok.inj hbytes] at hchars
        rw [hchars]

/-- There is a plan if there is an output, and it consists of the files of the output. -/
theorem plan_eq_ok_iff (hcut : Path.Cut '/' c.outPath.display.toList folder name.toList)
    {ws : List Write} :
    c.plan (t.read working c.metadata) = .ok ws ↔
      ∃ out, c.Yields t working (name ++ ".map") out ∧ ws = c.writes out := by
  rw [plan, options_of_cut hcut]
  constructor
  · intro h
    obtain ⟨o, ho, h⟩ := bind_eq_ok_iff.mp h
    obtain rfl := Except.ok.inj ho
    obtain ⟨text, htext, h⟩ := bind_eq_ok_iff.mp h
    obtain ⟨m, hm, h⟩ := bind_eq_ok_iff.mp h
    obtain ⟨out, hout, hws⟩ := bind_eq_ok_iff.mp h
    obtain ⟨bytes, chars, hread, hchars, rfl⟩ := metadataText_eq_ok_iff.mp htext
    obtain ⟨sheet, hsheet, hnormalize⟩ := Metadata.ofText_eq_ok_iff.mp (mapError_eq_ok_iff.mp hm)
    refine ⟨out, ⟨bytes, chars, sheet, hread, hchars, hsheet, ?_⟩, (Except.ok.inj hws).symm⟩
    exact CompiledSheet.generate_eq_ok_iff.mpr ⟨m, hnormalize, mapError_eq_ok_iff.mp hout⟩
  · rintro ⟨out, ⟨bytes, chars, sheet, hread, hchars, hsheet, hgenerate⟩, rfl⟩
    obtain ⟨m, hnormalize, hout⟩ := CompiledSheet.generate_eq_ok_iff.mp hgenerate
    have htext : c.metadataText (t.read working c.metadata) = .ok (String.ofList chars) :=
      metadataText_eq_ok_iff.mpr ⟨bytes, chars, hread, hchars, rfl⟩
    have hm := Metadata.ofText_eq_ok_iff.mpr ⟨sheet, hsheet, hnormalize⟩
    exact bind_eq_ok_iff.mpr ⟨_, rfl, bind_eq_ok_iff.mpr ⟨_, htext, bind_eq_ok_iff.mpr
      ⟨m, mapError_eq_ok_iff.mpr hm, bind_eq_ok_iff.mpr ⟨out, mapError_eq_ok_iff.mpr hout, rfl⟩⟩⟩⟩

/-- Without a plan something is wrong with the metadata.  It is never the name of the source map. -/
theorem plan_eq_error {f : Failure} {read : Except FileError (List UInt8)}
    (h : c.plan read = .error f) :
    (∀ path, f ≠ .noFileName path) ∧ ∀ path e, f ≠ .unwritable path e := by
  obtain ⟨folder, name, hcut⟩ := exists_cut c
  rw [plan, options_of_cut hcut] at h
  rcases bind_eq_error_iff.mp h with ho | ⟨o, -, h⟩
  · cases ho
  rcases bind_eq_error_iff.mp h with htext | ⟨text, -, h⟩
  · cases read with
    | error e =>
        cases htext
        exact ⟨nofun, nofun⟩
    | ok bytes =>
        rw [metadataText] at htext
        split at htext
        next => cases htext
        next =>
          cases htext
          exact ⟨nofun, nofun⟩
  rcases bind_eq_error_iff.mp h with hm | ⟨m, -, h⟩
  · obtain ⟨cause, -, rfl⟩ := mapError_eq_error_iff.mp hm
    exact ⟨nofun, nofun⟩
  rcases bind_eq_error_iff.mp h with hout | ⟨out, -, h⟩
  · obtain ⟨cause, -, rfl⟩ := mapError_eq_error_iff.mp hout
    exact ⟨nofun, nofun⟩
  · cases h

/-! ## Two files -/

theorem writes_of_sibling (h : c.map = .sibling) (out : Output) :
    c.writes out = [⟨c.outPath, out.referencedText⟩, ⟨c.mapPath, out.sourceMapText⟩] := by
  rw [writes, h]

theorem writes_of_ne_sibling (h : c.map ≠ .sibling) (out : Output) :
    c.writes out = [⟨c.outPath, out.referencedText⟩] := by
  rw [writes]
  cases hmap : c.map with
  | none => rfl
  | inline => rfl
  | sibling => exact absurd hmap h

/-- The source map is not written in the place of the declaration. -/
theorem pairwise_writes (c : Command) (t : FileTree) (working : List OsString) (out : Output) :
    (c.writes out).Pairwise fun v w => t.Apart working v.path w.path := by
  by_cases hmap : c.map = .sibling
  · rw [writes_of_sibling hmap, List.pairwise_pair]
    obtain ⟨folder, name, hcut⟩ := exists_cut c
    obtain ⟨folder', last, hcut'⟩ := Path.exists_cut Path.slash c.outPath.bytes
    intro directory found htrailing hout hmap
    obtain ⟨rfl, -⟩ := FileTree.eq_last_of_locate hcut' hout htrailing
    obtain ⟨hlast, -, -⟩ :=
      FileTree.follow_eq_entry_iff.mp (FileTree.locate_eq_entry_iff.mp hmap).2
    rw [(cut_mapPath hcut).names (bytes_append_map_ne_nil name), List.getLast?_concat] at hlast
    have hbytes : utf8 (name ++ ".map").toList = last :=
      congrArg OsString.bytes (Option.some.inj hlast)
    rw [String.toList_append] at hbytes
    rw [toList_display] at hcut
    exact hcut'.ne_utf8_append hcut (by decide) hbytes.symm
  · rw [writes_of_ne_sibling hmap]
    exact List.pairwise_singleton _ _

/-- The declaration is written first, and only the source map can follow it. -/
theorem writes_eq_append {out : Output} {done rest : List Write} {w : Write}
    (h : c.writes out = done ++ w :: rest) :
    done = [] ∧ w.path = c.outPath ∨
      c.map = .sibling ∧ done = [⟨c.outPath, out.referencedText⟩] ∧ w.path = c.mapPath := by
  cases done with
  | nil =>
      rw [writes] at h
      exact .inl ⟨rfl, (congrArg Write.path (List.cons.inj h).1).symm⟩
  | cons v done =>
      by_cases hmap : c.map = .sibling
      · rw [writes_of_sibling hmap] at h
        obtain ⟨hv, htail⟩ := List.cons.inj h
        cases done with
        | nil =>
            have hpath := congrArg Write.path (List.cons.inj htail).1
            exact .inr ⟨hmap, by rw [hv], hpath.symm⟩
        | cons u done => exact absurd (List.cons.inj htail).2.symm (by simp)
      · rw [writes_of_ne_sibling hmap] at h
        exact absurd (List.cons.inj h).2.symm (by simp)

/-! ## References -/

/-- How the declaration refers to a source map in the file `file`, and where this file is. -/
structure Refers (c : Command) (t : FileTree) (working : List OsString) (file : String)
    (out : Output) : Prop where
  text : out.referencedText = out.declaration ++ Output.referenceLine file
  /-- The reference is to the name of the file up to its first line break. -/
  named : inComment (Output.referenceLine file).toList
    = "//# sourceMappingURL=".toList ++ inComment file.toList
  whole : inComment file.toList = file.toList ↔ ∀ c ∈ file.toList, ¬ IsLineBreak c
  /-- The path of the source map is that of the declaration and an ending only where the latter is
  a text. -/
  path : c.mapPath = c.outPath ++ .ofString ".map" ↔ c.outPath.IsText
  /-- Then the source map is in the directory of the declaration. -/
  beside : c.outPath.IsText → ∃ directory name, file = name ++ ".map" ∧
    t.locate working c.outPath = .ok (.entry directory (.ofString name)) ∧
    t.locate working c.mapPath = .ok (.entry directory (.ofString file))

theorem mapPath_ne_outPath (c : Command) : c.mapPath ≠ c.outPath := by
  intro h
  have hdisplay : (OsString.ofString (c.outPath.display ++ ".map")).display = c.outPath.display :=
    congrArg OsString.display h
  rw [OsString.display_ofString] at hdisplay
  have hlength := length_append_map c.outPath.display
  rw [hdisplay] at hlength
  omega

theorem mapPath_eq_iff :
    c.mapPath = c.outPath ++ .ofString ".map" ↔ c.outPath.IsText := by
  constructor
  · intro h
    have hbytes : utf8 (c.outPath.display ++ ".map").toList
        = c.outPath.bytes ++ utf8 ".map".toList := congrArg OsString.bytes h
    rw [String.toList_append, utf8_append] at hbytes
    exact ⟨c.outPath.display, congrArg OsString.mk (List.append_cancel_right hbytes).symm⟩
  · rintro ⟨text, htext⟩
    rw [mapPath, htext, OsString.display_ofString, OsString.ofString_append]

/-- A source map stands beside a declaration whose path is a text. -/
theorem locate_of_isText (hcut : Path.Cut '/' c.outPath.display.toList folder name.toList)
    (htext : c.outPath.IsText) {directory inside : List OsString} {found found' : OsString}
    (htrailing : (Path.ofOsString c.outPath).trailing = false)
    (hout : t.locate working c.outPath = .ok (.entry directory found))
    (hmap : t.locate working c.mapPath = .ok (.entry inside found')) :
    found = .ofString name ∧ inside = directory ∧ found' = .ofString (name ++ ".map") := by
  obtain ⟨text, htext⟩ := htext
  have hbytes : Path.Cut Path.slash c.outPath.bytes (utf8 folder)
      (OsString.ofString name).bytes := by
    have hcut' := hcut.utf8_cut
    rw [htext, OsString.display_ofString] at hcut'
    rw [htext]
    exact hcut'
  obtain ⟨rfl, hname⟩ := FileTree.eq_last_of_locate hbytes hout htrailing
  have hsibling := FileTree.follow_sibling hbytes (cut_mapPath hcut) hname
    (bytes_append_map_ne_nil name) (isDots_append_map name) hout
  have hfollow := (FileTree.locate_eq_entry_iff.mp hmap).2
  obtain ⟨hdirectory, hfound⟩ :=
    FileTree.Target.entry.inj (Except.ok.inj (hfollow.symm.trans hsibling))
  exact ⟨rfl, hdirectory, hfound⟩

/-- The declaration refers to the source map by its name. -/
theorem referencedText_of_sibling {file : String} {out : Output} (hmap : c.map = .sibling)
    (h : c.Yields t working file out) :
    out.referencedText = out.declaration ++ Output.referenceLine file := by
  obtain ⟨bytes, text, sheet, -, -, -, hgenerate⟩ := h
  obtain ⟨m, -, hout⟩ := CompiledSheet.generate_eq_ok_iff.mp hgenerate
  rw [Output.referencedText, Output.mapAddress?, Metadata.delivery_generate hout, hmap]
  rfl

end Command

/-! ## Runs -/

namespace FileTree

variable {t after : FileTree} {working : List OsString} {c : Command} {folder : List Char}
  {name : String}

theorem run_of_plan {ws : List Write} (h : c.plan (t.read working c.metadata) = .ok ws) :
    t.run working c = t.writeAll working ws := by
  rw [run, h]

theorem run_of_plan_error {f : Failure} (h : c.plan (t.read working c.metadata) = .error f) :
    t.run working c = ⟨t, some f⟩ := by
  rw [run, h]

/-- A run that succeeds writes all files of the output. -/
theorem written_of_run (hcut : Path.Cut '/' c.outPath.display.toList folder name.toList)
    (h : t.run working c = ⟨after, none⟩) :
    ∃ out, c.Yields t working (name ++ ".map") out ∧ t.Written after working (c.writes out) := by
  cases hplan : c.plan (t.read working c.metadata) with
  | ok ws =>
      rw [run_of_plan hplan] at h
      obtain ⟨out, hout, rfl⟩ := (Command.plan_eq_ok_iff hcut).mp hplan
      exact ⟨out, hout, written_of_writeAll h (c.pairwise_writes t working out)⟩
  | error f =>
      rw [run_of_plan_error hplan] at h
      cases h

/-- A run that fails changes nothing, or it writes the declaration and then fails at the source
map. -/
theorem written_of_run_failed (hcut : Path.Cut '/' c.outPath.display.toList folder name.toList)
    {f : Failure} (h : t.run working c = ⟨after, some f⟩) :
    (∀ path, f ≠ .noFileName path) ∧
      (after = t ∧ (∀ e, f ≠ .unwritable c.mapPath e) ∨
        ∃ e out, f = .unwritable c.mapPath e ∧ c.map = .sibling ∧
          c.Yields t working (name ++ ".map") out ∧
          t.Written after working [⟨c.outPath, out.referencedText⟩]) := by
  cases hplan : c.plan (t.read working c.metadata) with
  | ok ws =>
      rw [run_of_plan hplan] at h
      obtain ⟨out, hout, rfl⟩ := (Command.plan_eq_ok_iff hcut).mp hplan
      obtain ⟨done, w, rest, e, hsplit, rfl, hdone⟩ := exists_split_of_writeAll h
      refine ⟨nofun, ?_⟩
      rcases Command.writes_eq_append hsplit with ⟨rfl, hpath⟩ | ⟨hmap, rfl, hpath⟩
      · refine .inl ⟨(congrArg Outcome.tree hdone).symm, fun e' he => ?_⟩
        exact Command.mapPath_ne_outPath c ((Failure.unwritable.inj he).1.symm.trans hpath)
      · refine .inr ⟨e, out, by rw [hpath], hmap, hout, ?_⟩
        exact written_of_writeAll hdone (List.pairwise_singleton _ _)
  | error g =>
      rw [run_of_plan_error hplan] at h
      obtain ⟨rfl, hf⟩ := Outcome.mk.inj h
      obtain rfl := Option.some.inj hf
      obtain ⟨hname, hunwritable⟩ := Command.plan_eq_error hplan
      exact ⟨hname, .inl ⟨rfl, hunwritable c.mapPath⟩⟩

/-- A source map that is written is where the declaration refers to it, if this can be. -/
theorem Written.refers {out : Output} (hmap : c.map = .sibling)
    (hcut : Path.Cut '/' c.outPath.display.toList folder name.toList)
    (hout : c.Yields t working (name ++ ".map") out)
    (h : t.Written after working
      [⟨c.outPath, out.referencedText⟩, ⟨c.mapPath, out.sourceMapText⟩]) :
    c.Refers t working (name ++ ".map") out := by
  obtain ⟨directory, found, hlocate, htrailing⟩ := h.exists_locate List.mem_cons_self
  obtain ⟨inside, found', hlocate', -⟩ :=
    h.exists_locate (List.mem_cons_of_mem _ List.mem_cons_self)
  refine ⟨Command.referencedText_of_sibling hmap hout, inComment_referenceLine _,
    inComment_eq_self_iff, Command.mapPath_eq_iff, fun htext => ?_⟩
  obtain ⟨rfl, rfl, rfl⟩ := Command.locate_of_isText hcut htext htrailing hlocate hlocate'
  exact ⟨inside, name, rfl, hlocate, hlocate'⟩

section Arguments

variable {arguments : List OsString} (h : Request.ofArguments arguments = .ok (.generate c))
include h

theorem runProgram_of_run (hrun : t.run working c = ⟨after, none⟩) :
    t.runProgram working arguments = (after, .success) := by
  simp only [runProgram, h, hrun]

theorem runProgram_of_run_failed {f : Failure} (hrun : t.run working c = ⟨after, some f⟩) :
    t.runProgram working arguments = (after, .failed f) := by
  simp only [runProgram, h, hrun]

end Arguments

end FileTree

/-- What a run of the command that succeeds leaves behind: it has generated `out`, and `file` is
the name of the source map. -/
structure Command.Leaves (c : Command) (t after : FileTree) (working : List OsString)
    (file : String) (out : Output) : Prop where
  output : c.Yields t working file out
  name : (Path.ofOsString c.mapPath).fileName? = some (.ofString file)
  alone : c.map ≠ .sibling → t.Written after working [⟨c.outPath, out.referencedText⟩]
  both : c.map = .sibling → t.Written after working
    [⟨c.outPath, out.referencedText⟩, ⟨c.mapPath, out.sourceMapText⟩]
  refers : c.map = .sibling → c.Refers t working file out

/-- **What a run leaves behind.**  A command is what its arguments ask for.  A run that succeeds
has read a stylesheet and written the output that is generated from it with the options of the
command: the declaration, and the source map if it is to be in a file of its own.  Nothing else is
changed.

A run that fails leaves everything as it was, unless the source map cannot be written.  Then the
declaration is written, and nothing else is changed.  The name of the source map is always found. -/
theorem FileTree.runProgram_generate {arguments : List OsString} {c : Command}
    (h : Request.ofArguments arguments = .ok (.generate c)) {t after : FileTree}
    {working : List OsString} {exit : Exit}
    (hrun : t.runProgram working arguments = (after, exit)) :
    c.AskedBy arguments ∧
      ((exit.code = 0 ∧ ∃ file out, c.Leaves t after working file out) ∨
        ∃ f, exit = .failed f ∧ exit.code = 1 ∧ (∀ path, f ≠ .noFileName path) ∧
          (after = t ∧ (∀ e, f ≠ .unwritable c.mapPath e) ∨
            ∃ e file out, f = .unwritable c.mapPath e ∧ c.map = .sibling ∧
              c.Yields t working file out ∧
              t.Written after working [⟨c.outPath, out.referencedText⟩])) := by
  refine ⟨Request.ofArguments_eq_generate_iff.mp h, ?_⟩
  obtain ⟨folder, name, hcut⟩ := Command.exists_cut c
  cases hc : t.run working c with
  | mk tree failure =>
    cases failure with
    | none =>
        rw [runProgram_of_run h hc] at hrun
        obtain ⟨rfl, rfl⟩ := Prod.mk.inj hrun
        obtain ⟨out, hout, hwritten⟩ := written_of_run hcut hc
        refine .inl ⟨rfl, name ++ ".map", out, hout, Command.fileName?_mapPath hcut,
          fun hmap => ?_, fun hmap => ?_, fun hmap => ?_⟩
        · exact Command.writes_of_ne_sibling hmap out ▸ hwritten
        · exact Command.writes_of_sibling hmap out ▸ hwritten
        · exact (Command.writes_of_sibling hmap out ▸ hwritten).refers hmap hcut hout
    | some f =>
        rw [runProgram_of_run_failed h hc] at hrun
        obtain ⟨rfl, rfl⟩ := Prod.mk.inj hrun
        obtain ⟨hname, hfailed⟩ := written_of_run_failed hcut hc
        refine .inr ⟨f, rfl, rfl, hname, hfailed.imp_right ?_⟩
        rintro ⟨e, out, hf, hmap, hout, hwritten⟩
        exact ⟨e, name ++ ".map", out, hf, hmap, hout, hwritten⟩

/-- The bytes of a stylesheet without declarations. -/
def bareBytes : List UInt8 := utf8 "\x7b\"namespace\":\"n\",\"symbols\":[]\x7d".toList

/-- A directory with a stylesheet. -/
def bareTree : FileTree := FileTree.empty.addFile ["w", "m.json"] bareBytes

/-- A directory with a stylesheet, and with a directory in the place of the source map. -/
def blockedTree : FileTree := bareTree.addDirectory ["w", "a.css.d.ts.map"]

/-- The command that reads the stylesheet and writes two files. -/
def bareCommand (out : Option OsString) : Command := ⟨"m.json", "a.css", out, .sibling, false⟩

section Bare

variable (out : Option OsString)

theorem exists_yields_bareCommand (file : String) :
    ∃ output, (bareCommand out).Yields bareTree ["w"] file output := by
  have hmappings : (Metadata.mk "n" [⟨"root", some ⟨1, 0⟩, []⟩] [] [] []).mappings "a.css"
      = [mappingAt 6 5 1 0 "a.css"] := by decide +kernel
  obtain ⟨output, houtput⟩ : ∃ output,
      (Metadata.mk "n" [⟨"root", some ⟨1, 0⟩, []⟩] [] [] []).generate
        ⟨"a.css", .firstWins, .sibling file⟩ = .ok output :=
    Metadata.exists_generate hmappings (by decide) (by decide +kernel)
  have hnormalize : CompiledSheet.normalize .firstWins ⟨some "n", none, some []⟩
      = .ok ⟨"n", [⟨"root", some ⟨1, 0⟩, []⟩], [], [], []⟩ :=
    toOption_eq_some_iff.mp (by decide +kernel)
  obtain ⟨text, htext, hsheet⟩ : ∃ text, ofUtf8? bareBytes = some text ∧
      CompiledSheet.parse? (String.ofList text) = some ⟨some "n", none, some []⟩ :=
    ⟨_, ofUtf8?_utf8 _, by decide +kernel⟩
  exact ⟨output, bareBytes, text, _, rfl, htext, hsheet,
    CompiledSheet.generate_eq_ok_iff.mpr ⟨_, hnormalize, houtput⟩⟩

variable {out} {folder : List Char} {name : String}
  (hcut : Path.Cut '/' (bareCommand out).outPath.display.toList folder name.toList)
include hcut

theorem exists_plan_bareCommand :
    ∃ output, (bareCommand out).Yields bareTree ["w"] (name ++ ".map") output ∧
      (bareCommand out).plan (.ok bareBytes) = .ok ((bareCommand out).writes output) := by
  obtain ⟨output, hyields⟩ := exists_yields_bareCommand out (name ++ ".map")
  have hplan : (bareCommand out).plan (bareTree.read ["w"] (bareCommand out).metadata)
      = .ok ((bareCommand out).writes output) :=
    (Command.plan_eq_ok_iff hcut).mpr ⟨output, hyields, rfl⟩
  exact ⟨output, hyields, hplan⟩

/-- Both files are written where they can be. -/
theorem run_bareCommand (outNames mapNames : List OsString)
    (hfirst : ∀ bytes, bareTree.write ["w"] (bareCommand out).outPath bytes
      = .ok (bareTree.put outNames (.file bytes)))
    (hsecond : ∀ bytes more,
      (bareTree.put outNames (.file bytes)).write ["w"] (bareCommand out).mapPath more
        = .ok ((bareTree.put outNames (.file bytes)).put mapNames (.file more))) :
    ∃ output, (bareCommand out).Yields bareTree ["w"] (name ++ ".map") output ∧
      bareTree.run ["w"] (bareCommand out)
        = ⟨(bareTree.put outNames (.file (utf8 output.referencedText.toList))).put mapNames
            (.file (utf8 output.sourceMapText.toList)), none⟩ := by
  obtain ⟨output, hyields, hplan⟩ := exists_plan_bareCommand hcut
  have hread : bareTree.read ["w"] (bareCommand out).metadata = .ok bareBytes := rfl
  have hwrites : (bareCommand out).writes output
      = [⟨(bareCommand out).outPath, output.referencedText⟩,
        ⟨(bareCommand out).mapPath, output.sourceMapText⟩] := rfl
  refine ⟨output, hyields, ?_⟩
  rw [FileTree.run_of_plan (by rw [hread, hplan]), hwrites,
    FileTree.writeAll_cons_ok (w := ⟨(bareCommand out).outPath, output.referencedText⟩) (hfirst _),
    FileTree.writeAll_cons_ok (w := ⟨(bareCommand out).mapPath, output.sourceMapText⟩)
      (hsecond _ _), FileTree.writeAll]

end Bare

theorem FileTree.runProgram_generate_bare :
    (∃ (after : FileTree) (out : Output),
      bareTree.runProgram ["w"] ["m.json", "-s", "a.css"] = (after, .success) ∧
      after.read ["w"] "a.css.d.ts" = .ok (utf8 out.referencedText.toList) ∧
      after.read ["w"] "a.css.d.ts.map" = .ok (utf8 out.sourceMapText.toList) ∧
      out.referencedText = out.declaration ++ Output.referenceLine "a.css.d.ts.map") ∧
    ∃ (after : FileTree) (out : Output),
      blockedTree.runProgram ["w"] ["m.json", "-s", "a.css"]
        = (after, .failed (.unwritable "a.css.d.ts.map" .isDirectory)) ∧
      after.read ["w"] "a.css.d.ts" = .ok (utf8 out.referencedText.toList) := by
  have harguments : Request.ofArguments ["m.json", "-s", "a.css"]
      = .ok (.generate (bareCommand none)) := toOption_eq_some_iff.mp (by decide +kernel)
  have hcut : Path.Cut '/' (bareCommand none).outPath.display.toList [] "a.css.d.ts".toList :=
    ⟨by decide +kernel, .inl rfl, by decide⟩
  have hmapPath : (bareCommand none).mapPath = "a.css.d.ts.map" := by decide +kernel
  constructor
  · obtain ⟨output, -, hrun⟩ := run_bareCommand hcut ["w", "a.css.d.ts"]
      ["w", "a.css.d.ts.map"] (fun _ => rfl) (fun _ _ => rfl)
    have hexit := runProgram_of_run harguments hrun
    obtain ⟨-, ⟨-, file, out, hleaves⟩ | ⟨f, hf, -⟩⟩ := runProgram_generate harguments hexit
    · have hfile : OsString.ofString file = "a.css.d.ts.map" :=
        Option.some.inj (hleaves.name.symm.trans (by decide +kernel))
      obtain rfl := OsString.ofString_inj.mp hfile
      have hwritten := hleaves.both rfl
      exact ⟨_, out, hexit, hwritten.read _ List.mem_cons_self,
        hmapPath ▸ hwritten.read _ (List.mem_cons_of_mem _ List.mem_cons_self),
        (hleaves.refers rfl).text⟩
    · cases hf
  · have hread : blockedTree.read ["w"] (bareCommand none).metadata = .ok bareBytes := rfl
    obtain ⟨output, -, hplan⟩ := exists_plan_bareCommand hcut
    have hwrites : (bareCommand none).writes output
        = [⟨(bareCommand none).outPath, output.referencedText⟩,
          ⟨(bareCommand none).mapPath, output.sourceMapText⟩] := rfl
    have hfirst : ∀ bytes, blockedTree.write ["w"] (bareCommand none).outPath bytes
        = .ok (blockedTree.put ["w", "a.css.d.ts"] (.file bytes)) := fun _ => rfl
    have hsecond : ∀ bytes more, (blockedTree.put ["w", "a.css.d.ts"] (.file bytes)).write ["w"]
        (bareCommand none).mapPath more = .error .isDirectory := fun _ _ => rfl
    obtain ⟨after, hrun⟩ : ∃ after, blockedTree.run ["w"] (bareCommand none)
        = ⟨after, some (.unwritable (bareCommand none).mapPath .isDirectory)⟩ := by
      rw [run_of_plan (by rw [hread, hplan]), hwrites,
        writeAll_cons_ok (w := ⟨(bareCommand none).outPath, output.referencedText⟩) (hfirst _),
        writeAll_cons_error (w := ⟨(bareCommand none).mapPath, output.sourceMapText⟩) (hsecond _ _)]
      exact ⟨_, rfl⟩
    have hexit := runProgram_of_run_failed harguments hrun
    obtain ⟨-, ⟨hcode, -⟩ | ⟨f, hf, -, -, hfailed⟩⟩ := runProgram_generate harguments hexit
    · cases hcode
    · obtain rfl := Exit.failed.inj hf
      rcases hfailed with ⟨-, hother⟩ | ⟨e, file, out, -, -, -, hwritten⟩
      · exact absurd rfl (hother .isDirectory)
      · exact ⟨after, out, hmapPath ▸ hexit, hwritten.read _ List.mem_cons_self⟩

/-- A name of a file that is no text. -/
def bytesName : OsString := ⟨0xff :: utf8 ".d.ts".toList⟩

/-- The source map is written, but the reference to it ends at a line feed, or the file that the
option asks for is not there. -/
theorem FileTree.runProgram_misnamed_map :
    (∃ (after : FileTree) (out : Output),
      bareTree.runProgram ["w"] ["m.json", "-s", "a.css", "-o", "a\nb.d.ts"] = (after, .success) ∧
      after.read ["w"] "a\nb.d.ts" = .ok (utf8 out.referencedText.toList) ∧
      out.referencedText = out.declaration ++ Output.referenceLine "a\nb.d.ts.map" ∧
      inComment (Output.referenceLine "a\nb.d.ts.map").toList = "//# sourceMappingURL=a".toList ∧
      after.read ["w"] "a" = .error .notFound ∧
      after.read ["w"] "a\nb.d.ts.map" = .ok (utf8 out.sourceMapText.toList)) ∧
    ∃ (after : FileTree) (out : Output),
      bareTree.runProgram ["w"] ["m.json", "-s", "a.css", "-o", bytesName] = (after, .success) ∧
      after.read ["w"] (bytesName ++ .ofString ".map") = .error .notFound ∧
      after.read ["w"] "\ufffd.d.ts.map" = .ok (utf8 out.sourceMapText.toList) := by
  constructor
  · have harguments : Request.ofArguments ["m.json", "-s", "a.css", "-o", "a\nb.d.ts"]
        = .ok (.generate (bareCommand (some "a\nb.d.ts"))) :=
      toOption_eq_some_iff.mp (by decide +kernel)
    have hcut : Path.Cut '/' (bareCommand (some "a\nb.d.ts")).outPath.display.toList []
        "a\nb.d.ts".toList := ⟨by decide +kernel, .inl rfl, by decide⟩
    obtain ⟨out, hyields, hrun⟩ := run_bareCommand hcut ["w", "a\nb.d.ts"] ["w", "a\nb.d.ts.map"]
      (fun _ => rfl) (fun _ _ => rfl)
    exact ⟨_, out, runProgram_of_run harguments hrun, rfl,
      Command.referencedText_of_sibling rfl hyields,
      (inComment_referenceLine _).trans (by decide +kernel), rfl, rfl⟩
  · have harguments : Request.ofArguments ["m.json", "-s", "a.css", "-o", bytesName]
        = .ok (.generate (bareCommand (some bytesName))) :=
      toOption_eq_some_iff.mp (by decide +kernel)
    have hcut : Path.Cut '/' (bareCommand (some bytesName)).outPath.display.toList []
        "\ufffd.d.ts".toList := ⟨by decide +kernel, .inl rfl, by decide⟩
    obtain ⟨out, -, hrun⟩ := run_bareCommand hcut ["w", bytesName] ["w", "\ufffd.d.ts.map"]
      (fun _ => rfl) (fun _ _ => rfl)
    exact ⟨_, out, runProgram_of_run harguments hrun, rfl, rfl⟩

end TypedStyles.CommandLine
