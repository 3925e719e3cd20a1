import TypedStyles.CommandLine.Run
import TypedStyles.Proofs.CommandLine.FileTree

/-!
# Writing files in turn

`FileTree.Written` says what files that are written leave behind: every file holds
its text, and nothing else is different.  One more file keeps this if it is
elsewhere (`FileTree.Written.cons`).  So it holds of all files if none fails
(`FileTree.written_of_writeAll`), and of those before the first that fails
(`FileTree.exists_split_of_writeAll`).
-/

namespace TypedStyles.CommandLine.FileTree

variable {t t' after : FileTree} {working : List OsString} {ws : List Write}

theorem writeAll_cons_ok {w : Write}
    (h : t.write working w.path (utf8 w.text.toList) = .ok t') :
    t.writeAll working (w :: ws) = t'.writeAll working ws := by
  rw [writeAll, h]

theorem writeAll_cons_error {w : Write} {e : FileError}
    (h : t.write working w.path (utf8 w.text.toList) = .error e) :
    t.writeAll working (w :: ws) = ⟨t, some (.unwritable w.path e)⟩ := by
  rw [writeAll, h]

/-! ## Paths that lead apart -/

/-- A path that can be written leads elsewhere than another path. -/
def Apart (t : FileTree) (working : List OsString) (path other : OsString) : Prop :=
  ∀ directory name, (Path.ofOsString path).trailing = false →
    t.locate working path = .ok (.entry directory name) →
      t.locate working other ≠ .ok (.entry directory name)

theorem Apart.of_sameDirectories {path other : OsString} (h : Apart t working path other)
    (hsame : SameDirectories t t') : Apart t' working path other :=
  fun directory name htrailing hpath hother =>
    h directory name htrailing (hsame.symm.locate hpath) (hsame.symm.locate hother)

/-! ## What writing leaves behind -/

/-- One tree is another with these files written, and is not different otherwise. -/
structure Written (before after : FileTree) (working : List OsString) (ws : List Write) : Prop where
  /-- Every file holds its text. -/
  read : ∀ w ∈ ws, after.read working w.path = .ok (utf8 w.text.toList)
  /-- No directory is made or removed. -/
  directories : SameDirectories before after
  /-- What is at any other place is as it was. -/
  frame : ∀ names, (∀ w ∈ ws, ∀ directory name,
      before.locate working w.path = .ok (.entry directory name) → names ≠ directory ++ [name]) →
    after.node? names = before.node? names

namespace Written

theorem nil (t : FileTree) (working : List OsString) : Written t t working [] :=
  ⟨nofun, .refl t, fun _ _ => rfl⟩

/-- A file elsewhere can still be read. -/
theorem read_of_apart (h : Written t after working ws) {path : OsString} {bytes : List UInt8}
    (hread : t.read working path = .ok bytes) (hapart : ∀ w ∈ ws, Apart t working path w.path) :
    after.read working path = .ok bytes := by
  obtain ⟨directory, name, hlocate, htrailing, hsize, hnode⟩ := read_eq_ok_iff.mp hread
  have hframe : after.node? (directory ++ [name]) = t.node? (directory ++ [name]) := by
    apply h.frame
    intro w hw directory' name' hother hsame
    obtain ⟨rfl, hname⟩ := List.append_inj' hsame rfl
    obtain rfl : name = name' := List.singleton_inj.mp hname
    exact hapart w hw directory name htrailing hlocate hother
  exact read_eq_ok_iff.mpr ⟨directory, name, h.directories.locate hlocate, htrailing, hsize,
    hframe.trans hnode⟩

theorem exists_locate (h : Written t after working ws) {w : Write} (hw : w ∈ ws) :
    ∃ directory name, t.locate working w.path = .ok (.entry directory name) ∧
      (Path.ofOsString w.path).trailing = false := by
  obtain ⟨directory, name, hlocate, htrailing, -⟩ := read_eq_ok_iff.mp (h.read w hw)
  exact ⟨directory, name, h.directories.symm.locate hlocate, htrailing⟩

theorem cons {w : Write} (hwrite : t.write working w.path (utf8 w.text.toList) = .ok t')
    (hapart : ∀ v ∈ ws, Apart t working w.path v.path) (h : Written t' after working ws) :
    Written t after working (w :: ws) := by
  have hsame := sameDirectories_of_write hwrite
  constructor
  · intro v hv
    rcases List.mem_cons.mp hv with rfl | hv
    · exact h.read_of_apart (read_of_write hwrite) fun v hv =>
        (hapart v hv).of_sameDirectories hsame
    · exact h.read v hv
  · exact hsame.trans h.directories
  · intro names hnames
    rw [h.frame names fun v hv directory name hlocate =>
        hnames v (List.mem_cons_of_mem w hv) directory name (hsame.symm.locate hlocate)]
    exact node?_of_write hwrite (hnames w List.mem_cons_self)

end Written

/-! ## Runs of writes -/

/-- If all files are written, they hold their texts and nothing else is changed. -/
theorem written_of_writeAll (h : t.writeAll working ws = ⟨after, none⟩)
    (hapart : ws.Pairwise fun v w => Apart t working v.path w.path) :
    Written t after working ws := by
  induction ws generalizing t with
  | nil =>
      obtain rfl : t = after := congrArg Outcome.tree h
      exact .nil t working
  | cons w ws ih =>
      obtain ⟨hfirst, hrest⟩ := List.pairwise_cons.mp hapart
      cases hwrite : t.write working w.path (utf8 w.text.toList) with
      | ok mid =>
          rw [writeAll_cons_ok hwrite] at h
          have hsame := sameDirectories_of_write hwrite
          exact .cons hwrite hfirst (ih h (hrest.imp fun hvw => hvw.of_sameDirectories hsame))
      | error e =>
          rw [writeAll_cons_error hwrite] at h
          cases h

/-- If not all files are written, those before the first that cannot be written are. -/
theorem exists_split_of_writeAll {f : Failure} (h : t.writeAll working ws = ⟨after, some f⟩) :
    ∃ done w rest e, ws = done ++ w :: rest ∧ f = .unwritable w.path e ∧
      t.writeAll working done = ⟨after, none⟩ := by
  induction ws generalizing t with
  | nil => cases h
  | cons w ws ih =>
      cases hwrite : t.write working w.path (utf8 w.text.toList) with
      | ok mid =>
          rw [writeAll_cons_ok hwrite] at h
          obtain ⟨done, v, rest, e, rfl, hf, hdone⟩ := ih h
          exact ⟨w :: done, v, rest, e, rfl, hf, (writeAll_cons_ok hwrite).trans hdone⟩
      | error e =>
          rw [writeAll_cons_error hwrite] at h
          obtain ⟨rfl, hf⟩ := Outcome.mk.inj h
          exact ⟨[], w, ws, e, rfl, (Option.some.inj hf).symm, rfl⟩

end TypedStyles.CommandLine.FileTree
