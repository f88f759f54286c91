import HierarchyAccessors.Disk.Basic
import HierarchyAccessors.Json.Fault
import Mathlib.Tactic.SplitIfs

/-!
# Where paths lead

There are no links on a disk, so a path leads to one location, which its text and the working
directory determine (`Disk.place`). A walk may fail on the way, but it ends nowhere else
(`openDirectory_eq_place`). What was opened can be opened again for as long as no directory is taken
away (`Keeps.openDirectory`).
-/

namespace HierarchyAccessors.Disk

/-! ## The location of a path -/

/-- The location that a name leads to. -/
def follow (here : Location) (name : String) : Location :=
  if name = "" ∨ name = "." then here
  else if name = ".." then here.dropLast
  else here ++ [name]

/-- The location that a path leads to, if it leads anywhere. -/
def place (disk : Disk) (path : String) : Location :=
  (Path.names path).foldl follow (if Path.isAbsolute path then [] else disk.workingDirectory)

theorem step_eq_follow {confined : Option Location} {here next : Location} {name : String}
    (h : step confined here name = .ok next) : next = follow here name := by
  unfold step at h
  unfold follow
  split_ifs at h ⊢ <;> cases h <;> rfl

theorem walkNames_eq_foldl {disk : Disk} {confined : Option Location} {here there : Location}
    {names : List String} (h : disk.walkNames confined here names = .ok there) :
    there = names.foldl follow here := by
  induction names generalizing here with
  | nil => exact (Except.ok.inj h).symm
  | cons name names ih =>
    unfold walkNames at h
    split at h
    · obtain ⟨next, hnext, h⟩ := Json.bind_eq_ok_iff.1 h
      rw [List.foldl_cons, ← step_eq_follow hnext]
      split at h
      · cases h
      · exact ih h
    · cases h

/-! ## Opening a directory -/

/-- Where a path begins, and its names, unless no walk can begin with it. -/
theorem start_eq_ok {disk : Disk} {path : String} {here : Location} {names : List String}
    (h : disk.start none path = .ok (here, names)) :
    here = (if Path.isAbsolute path then [] else disk.workingDirectory) ∧
      names = Path.names path := by
  obtain ⟨-, -, h⟩ := Json.bind_eq_ok_iff.1 h
  split at h
  · next absolute =>
    cases h
    exact ⟨by rw [if_pos absolute], rfl⟩
  · next relative =>
    cases h
    exact ⟨by rw [if_neg relative]; rfl, rfl⟩

theorem openDirectory_eq_ok_iff {disk : Disk} {confined : Option Location} {path : String}
    {here : Location} : disk.openDirectory confined path = .ok here ↔
      disk.locate confined path = .ok here ∧ disk.node? here = some .directory := by
  unfold openDirectory
  rw [Json.bind_eq_ok_iff]
  constructor
  · rintro ⟨there, located, h⟩
    split at h
    · next directory =>
      cases h
      exact ⟨located, directory⟩
    · cases h
  · rintro ⟨located, directory⟩
    refine ⟨here, located, ?_⟩
    rw [directory]
    rfl

/-- A path that can be opened leads to its own location. -/
theorem openDirectory_eq_place {disk : Disk} {path : String} {here : Location}
    (h : disk.openDirectory none path = .ok here) : here = disk.place path := by
  obtain ⟨located, -⟩ := openDirectory_eq_ok_iff.1 h
  obtain ⟨⟨origin, names⟩, hstart, walk⟩ := Json.bind_eq_ok_iff.1 located
  obtain ⟨rfl, rfl⟩ := start_eq_ok hstart
  exact walkNames_eq_foldl walk

/-! ## Disks that keep their directories -/

/-- The directories of a disk are directories of another, with the same working directory. -/
structure Keeps (disk after : Disk) : Prop where
  workingDirectory : after.workingDirectory = disk.workingDirectory
  directory : ∀ l, disk.node? l = some .directory → after.node? l = some .directory

namespace Keeps

variable {disk after later : Disk}

theorem refl (disk : Disk) : Keeps disk disk := ⟨rfl, fun _ => id⟩

theorem trans (h : Keeps disk after) (h' : Keeps after later) : Keeps disk later :=
  ⟨h'.workingDirectory.trans h.workingDirectory, fun l hl => h'.directory l (h.directory l hl)⟩

theorem place (h : Keeps disk after) (path : String) : after.place path = disk.place path := by
  rw [Disk.place, Disk.place, h.workingDirectory]

theorem start (h : Keeps disk after) (confined : Option Location) (path : String) :
    after.start confined path = disk.start confined path := by
  rw [Disk.start, Disk.start, h.workingDirectory]

/-- A walk that ends in a directory passes through directories only, so it succeeds again. -/
theorem walkNames (h : Keeps disk after) {confined : Option Location} {here there : Location}
    {names : List String} (walk : disk.walkNames confined here names = .ok there)
    (directory : disk.node? there = some .directory) :
    disk.node? here = some .directory ∧ after.walkNames confined here names = .ok there := by
  induction names generalizing here with
  | nil =>
    cases walk
    exact ⟨directory, rfl⟩
  | cons name names ih =>
    unfold Disk.walkNames at walk ⊢
    split at walk
    · next isDirectory =>
      obtain ⟨next, hnext, walk⟩ := Json.bind_eq_ok_iff.1 walk
      split at walk
      · cases walk
      · obtain ⟨nextDirectory, again⟩ := ih walk
        refine ⟨isDirectory, ?_⟩
        rw [h.directory here isDirectory]
        refine Json.bind_eq_ok_iff.2 ⟨next, hnext, ?_⟩
        rw [h.directory next nextDirectory]
        exact again
    · cases walk

/-- What was opened can be opened again. -/
theorem openDirectory (h : Keeps disk after) {confined : Option Location} {path : String}
    {here : Location} (opened : disk.openDirectory confined path = .ok here) :
    after.openDirectory confined path = .ok here := by
  obtain ⟨located, directory⟩ := openDirectory_eq_ok_iff.1 opened
  obtain ⟨⟨origin, names⟩, hstart, walk⟩ := Json.bind_eq_ok_iff.1 located
  refine openDirectory_eq_ok_iff.2 ⟨?_, h.directory here directory⟩
  refine Json.bind_eq_ok_iff.2 ⟨(origin, names), ?_, (h.walkNames walk directory).2⟩
  rw [h.start, hstart]

end Keeps

/-! ## Changing files -/

theorem keeps_set {disk : Disk} {l : Location} (ne : l ≠ []) (node : Node)
    (h : node = .directory ∨ disk.node? l ≠ some .directory) : Keeps disk (disk.set l node) := by
  refine ⟨rfl, fun l' directory => ?_⟩
  rw [node?_set disk ne]
  by_cases same : l' = l
  · subst same
    rcases h with rfl | h
    · rw [if_pos rfl]
    · exact absurd directory h
  · rw [if_neg same, directory]

theorem keeps_erase {disk : Disk} {l : Location} (ne : l ≠ [])
    (h : disk.node? l ≠ some .directory) : Keeps disk (disk.erase l) := by
  refine ⟨rfl, fun l' directory => ?_⟩
  rw [node?_erase disk ne]
  by_cases same : l' = l
  · subst same
    exact absurd directory h
  · rw [if_neg same, directory]

end HierarchyAccessors.Disk
