import TypedStyles.CommandLine.FileTree
import TypedStyles.Proofs.CommandLine.Path
import TypedStyles.Proofs.Success

/-!
# Files that are written

A path that can be written leads to a name in a directory
(`FileTree.write_eq_ok_iff`).  Only the directories of a tree decide where a path
leads (`FileTree.SameDirectories.locate`), and writing makes or removes none.  So
what is written can be read (`FileTree.read_of_write`), and all other files stay
as they are (`FileTree.node?_of_write`).
-/

namespace TypedStyles.CommandLine.FileTree

variable {t t' t'' : FileTree} {working directory names : List OsString} {path name : OsString}
  {bytes : List UInt8}

theorem child?_eq_ok_iff {n : Option Node} :
    t.child? directory name = .ok n ↔
      name.bytes.length ≤ 255 ∧ t.node? (directory ++ [name]) = n := by
  rw [child?]
  split
  next h => exact ⟨nofun, fun ⟨hsize, _⟩ => absurd hsize (Nat.not_le.mpr h)⟩
  next h =>
    rw [Except.ok.injEq]
    exact ⟨fun hnode => ⟨Nat.not_lt.mp h, hnode⟩, And.right⟩

/-! ## Trees with the same directories -/

/-- Two trees have the same directories. -/
def SameDirectories (t t' : FileTree) : Prop :=
  ∀ names, t.node? names = some .directory ↔ t'.node? names = some .directory

namespace SameDirectories

theorem refl (t : FileTree) : SameDirectories t t := fun _ => Iff.rfl

theorem symm (h : SameDirectories t t') : SameDirectories t' t := fun names => (h names).symm

theorem trans (h : SameDirectories t t') (h' : SameDirectories t' t'') : SameDirectories t t'' :=
  fun names => (h names).trans (h' names)

/-- A file in the place of no directory leaves the directories as they are. -/
theorem put (h : t.node? names ≠ some .directory) (bytes : List UInt8) :
    SameDirectories t (t.put names (.file bytes)) := by
  intro other
  by_cases hother : other = names
  · have hnames : names ≠ [] := fun hnil => h (by rw [hnil]; rfl)
    rw [hother, node?_put_self t names _ hnames]
    exact ⟨fun hnode => absurd hnode h, nofun⟩
  · rw [node?_put_of_ne t names other _ hother]

theorem enter (h : SameDirectories t t') {inside : List OsString}
    (henter : t.enter directory name = .ok inside) : t'.enter directory name = .ok inside := by
  rw [FileTree.enter] at henter ⊢
  split
  next hdot =>
    rw [if_pos hdot] at henter
    exact henter
  next hdot =>
    rw [if_neg hdot] at henter
    split
    next hup =>
      rw [if_pos hup] at henter
      exact henter
    next hup =>
      rw [if_neg hup] at henter
      split at henter
      next => cases henter
      next => cases henter
      next => cases henter
      next hchild =>
        obtain ⟨hsize, hnode⟩ := child?_eq_ok_iff.mp hchild
        rw [child?_eq_ok_iff.mpr ⟨hsize, (h _).mp hnode⟩]
        exact henter

theorem enterAll (h : SameDirectories t t') {inside : List OsString}
    (henter : t.enterAll directory names = .ok inside) :
    t'.enterAll directory names = .ok inside := by
  induction names generalizing directory with
  | nil => exact henter
  | cons name names ih =>
      obtain ⟨next, hname, hnames⟩ := bind_eq_ok_iff.mp henter
      exact bind_eq_ok_iff.mpr ⟨next, h.enter hname, ih hnames⟩

end SameDirectories

/-! ## Where a path leads -/

theorem follow_eq_entry_iff {p : Path} :
    t.follow working p = .ok (.entry directory name) ↔
      p.names.getLast? = some name ∧ Path.isDots name = false ∧
        t.enterAll (if p.absolute then [] else working) p.names.dropLast = .ok directory := by
  rw [follow]
  cases p.names.getLast? with
  | none =>
      cases p.absolute with
      | false => exact ⟨nofun, fun ⟨h, _⟩ => nomatch h⟩
      | true => exact ⟨nofun, fun ⟨h, _⟩ => nomatch h⟩
  | some last =>
      cases t.enterAll (if p.absolute then [] else working) p.names.dropLast with
      | error e => exact ⟨nofun, fun ⟨_, _, h⟩ => nomatch h⟩
      | ok inside =>
          by_cases hdots : Path.isDots last = true
          · simp only [hdots, if_true]
            exact ⟨nofun, fun ⟨hname, hnone, _⟩ => by
              rw [← Option.some.inj hname, hdots] at hnone
              cases hnone⟩
          · simp only [hdots]
            constructor
            · intro h
              obtain ⟨rfl, rfl⟩ := Target.entry.inj (Except.ok.inj h)
              exact ⟨rfl, Bool.eq_false_iff.mpr hdots, rfl⟩
            · rintro ⟨hname, -, hinside⟩
              rw [Option.some.inj hname, Except.ok.inj hinside]
              rfl

theorem locate_eq_entry_iff :
    t.locate working path = .ok (.entry directory name) ↔
      path.bytes.length ≤ longestPath ∧
        t.follow working (.ofOsString path) = .ok (.entry directory name) := by
  rw [locate]
  split
  next h => exact ⟨nofun, fun ⟨hsize, _⟩ => absurd hsize (Nat.not_le.mpr h)⟩
  next h => exact ⟨fun hfollow => ⟨Nat.not_lt.mp h, hfollow⟩, And.right⟩

/-- Directories alone decide where a path leads. -/
theorem SameDirectories.locate (h : SameDirectories t t')
    (hlocate : t.locate working path = .ok (.entry directory name)) :
    t'.locate working path = .ok (.entry directory name) := by
  obtain ⟨hsize, hfollow⟩ := locate_eq_entry_iff.mp hlocate
  obtain ⟨hlast, hdots, henter⟩ := follow_eq_entry_iff.mp hfollow
  exact locate_eq_entry_iff.mpr ⟨hsize, follow_eq_entry_iff.mpr ⟨hlast, hdots, h.enterAll henter⟩⟩

/-! ## Paths that are cut -/

section Cut

variable {folder last : List UInt8}

/-- Without a slash at its end, a path leads to its last name. -/
theorem eq_last_of_locate (hcut : Path.Cut Path.slash path.bytes folder last)
    (hlocate : t.locate working path = .ok (.entry directory name))
    (htrailing : (Path.ofOsString path).trailing = false) : name = ⟨last⟩ ∧ last ≠ [] := by
  obtain ⟨-, hfollow⟩ := locate_eq_entry_iff.mp hlocate
  obtain ⟨hname, -, -⟩ := follow_eq_entry_iff.mp hfollow
  have hne : last ≠ [] := by
    rintro rfl
    have hpath : path = ⟨folder⟩ := congrArg OsString.mk (by rw [hcut.eq, List.append_nil])
    rcases hcut.folder with rfl | hslash
    · rw [hpath] at hname
      cases hname
    · rw [hpath] at htrailing
      exact absurd hslash (of_decide_eq_false htrailing)
  rw [hcut.names hne, List.getLast?_concat] at hname
  exact ⟨(Option.some.inj hname).symm, hne⟩

/-- Two paths with the same folder lead into the same directory. -/
theorem follow_sibling {path' : OsString} {last' : List UInt8}
    (hcut : Path.Cut Path.slash path.bytes folder last)
    (hcut' : Path.Cut Path.slash path'.bytes folder last') (hne : last ≠ []) (hne' : last' ≠ [])
    (hdots : Path.isDots ⟨last'⟩ = false)
    (hlocate : t.locate working path = .ok (.entry directory name)) :
    t.follow working (.ofOsString path') = .ok (.entry directory ⟨last'⟩) := by
  obtain ⟨-, hfollow⟩ := locate_eq_entry_iff.mp hlocate
  obtain ⟨-, -, henter⟩ := follow_eq_entry_iff.mp hfollow
  rw [hcut.names hne, List.dropLast_concat, hcut.absolute] at henter
  refine follow_eq_entry_iff.mpr ⟨?_, hdots, ?_⟩
  · rw [hcut'.names hne', List.getLast?_concat]
  · rw [hcut'.names hne', List.dropLast_concat, hcut'.absolute]
    exact henter

end Cut

/-! ## Reading and writing -/

theorem read_eq_ok_iff :
    t.read working path = .ok bytes ↔
      ∃ directory name, t.locate working path = .ok (.entry directory name) ∧
        (Path.ofOsString path).trailing = false ∧ name.bytes.length ≤ 255 ∧
        t.node? (directory ++ [name]) = some (.file bytes) := by
  constructor
  · intro h
    rw [read] at h
    split at h
    next => cases h
    next => cases h
    next directory name hlocate =>
      split at h
      next => cases h
      next => cases h
      next => cases h
      next found hchild =>
        obtain ⟨hsize, hnode⟩ := child?_eq_ok_iff.mp hchild
        split at h
        next => cases h
        next htrailing =>
          rw [Except.ok.inj h] at hnode
          exact ⟨directory, name, hlocate, Bool.eq_false_iff.mpr htrailing, hsize, hnode⟩
  · rintro ⟨directory, name, hlocate, htrailing, hsize, hnode⟩
    have hchild := child?_eq_ok_iff.mpr ⟨hsize, hnode⟩
    simp only [read, hlocate, hchild, htrailing]
    rfl

theorem write_eq_ok_iff :
    t.write working path bytes = .ok t' ↔
      ∃ directory name, t.locate working path = .ok (.entry directory name) ∧
        (Path.ofOsString path).trailing = false ∧ name.bytes.length ≤ 255 ∧
        t.node? (directory ++ [name]) ≠ some .directory ∧
        t' = t.put (directory ++ [name]) (.file bytes) := by
  constructor
  · intro h
    rw [write] at h
    split at h
    next => cases h
    next => cases h
    next directory name hlocate =>
      split at h
      next => cases h
      next htrailing =>
        split at h
        next => cases h
        next => cases h
        next found hfound hchild =>
          obtain ⟨hsize, hnode⟩ := child?_eq_ok_iff.mp hchild
          refine ⟨directory, name, hlocate, Bool.eq_false_iff.mpr htrailing, hsize, ?_,
            (Except.ok.inj h).symm⟩
          exact fun hdirectory => hfound (hnode.symm.trans hdirectory)
  · rintro ⟨directory, name, hlocate, htrailing, hsize, hnode, rfl⟩
    rw [write, hlocate]
    simp only [htrailing]
    cases hfound : t.node? (directory ++ [name]) with
    | none =>
        rw [child?_eq_ok_iff.mpr ⟨hsize, hfound⟩]
        rfl
    | some n =>
        cases n with
        | directory => exact absurd hfound hnode
        | file old =>
            rw [child?_eq_ok_iff.mpr ⟨hsize, hfound⟩]
            rfl

/-- Writing makes and removes no directory. -/
theorem sameDirectories_of_write (h : t.write working path bytes = .ok t') :
    SameDirectories t t' := by
  obtain ⟨directory, name, -, -, -, hnode, rfl⟩ := write_eq_ok_iff.mp h
  exact .put hnode bytes

/-- What is written can be read. -/
theorem read_of_write (h : t.write working path bytes = .ok t') :
    t'.read working path = .ok bytes := by
  have hsame := sameDirectories_of_write h
  obtain ⟨directory, name, hlocate, htrailing, hsize, -, rfl⟩ := write_eq_ok_iff.mp h
  exact read_eq_ok_iff.mpr ⟨directory, name, hsame.locate hlocate, htrailing, hsize,
    node?_put_self t _ _ (by simp)⟩

/-- Writing changes nothing but the file that the path leads to. -/
theorem node?_of_write (h : t.write working path bytes = .ok t')
    (hnames : ∀ directory name, t.locate working path = .ok (.entry directory name) →
      names ≠ directory ++ [name]) :
    t'.node? names = t.node? names := by
  obtain ⟨directory, name, hlocate, -, -, -, rfl⟩ := write_eq_ok_iff.mp h
  exact node?_put_of_ne t _ names _ (hnames directory name hlocate)

end TypedStyles.CommandLine.FileTree
