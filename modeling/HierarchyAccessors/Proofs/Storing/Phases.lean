import HierarchyAccessors.Proofs.Storing.Steps

/-!
# The phases of storing

Storing opens the directory, puts the units into it, removes the stale ones, and puts the manifest
there. Putting files one after the other (`Puts`) and taking files away (`Removes`) are steps of one
kind each. A store that succeeds went through all phases (`store_eq_ok`).
-/

namespace HierarchyAccessors.OutputDirectory

open Disk (Adds Openable SameDirectories ValidName bytesOf)
open RunM

/-! ## Opening or making the directory -/

theorem make_on (path : String) (disk : Disk) :
    (make path).on disk =
      ((disk.makeDirectories path).2.mapError (.disk path), (disk.makeDirectories path).1) := by
  rw [make, on_get]
  generalize disk.makeDirectories path = made
  obtain ⟨after, result⟩ := made
  cases result <;> rfl

/-- The directory that is opened or made has the path's location, and only directories are new. -/
theorem openOrMake_spec {path : String} {disk after : Disk} {here : Location}
    (h : (openOrMake path).on disk = (.ok here, after)) :
    Adds disk after ∧ after.openDirectory none path = .ok here := by
  obtain ⟨opened, unchanged, found, h⟩ := on_bind_eq_ok_iff.1 h
  rw [openIfPresent_on] at found
  split at found
  · next there isOpen =>
    cases found
    cases h
    exact ⟨.refl disk, isOpen⟩
  · cases found
    obtain ⟨⟨⟩, made, making, h⟩ := on_bind_eq_ok_iff.1 h
    rw [make_on] at making
    rw [on_look] at h
    obtain ⟨-, rfl⟩ := Prod.mk.inj making
    obtain ⟨isOpen, rfl⟩ := Prod.mk.inj h
    refine ⟨Disk.adds_makeAll _ _, ?_⟩
    cases result : (disk.makeDirectories path).1.openDirectory none path with
    | ok there =>
      rw [result] at isOpen
      cases isOpen
      rfl
    | error e =>
      rw [result] at isOpen
      cases isOpen
  · cases found

/-- It stands where the path leads, whether or not it was there. -/
theorem openOrMake_place {path : String} {disk after : Disk} {here : Location}
    (h : (openOrMake path).on disk = (.ok here, after)) :
    here = disk.place path ∧ after.node? here = some .directory := by
  obtain ⟨adds, isOpen⟩ := openOrMake_spec h
  exact ⟨(Disk.openDirectory_eq_place isOpen).trans (adds.toKeeps.place path),
    (Disk.openDirectory_eq_ok_iff.1 isOpen).2⟩

/-! ## Putting files -/

/-- The files are put into the directory one after the other, and each has an entry. -/
structure Puts (disk after : Disk) (here : Location) (files : List SourceUnit) : Prop where
  ran : Ran disk after here (files.map .put)
  openable : ∀ file ∈ files, Openable file.name
  entry : ∀ file ∈ files, ∃ l, disk.Denotes here file.name l

namespace Puts

variable {disk between after : Disk} {here : Location} {file : SourceUnit} {files : List SourceUnit}

theorem nil (disk : Disk) (here : Location) : Puts disk disk here [] where
  ran := .nil disk here
  openable := by simp
  entry := by simp

theorem singleton {path : String} (directory : disk.node? here = some .directory)
    (h : (putFile path here file.name file.source).on disk = (.ok (), after)) :
    Puts disk after here [file] := by
  have step : ((FileStep.put file).run path here).on disk = (.ok (), after) := h
  obtain ⟨openable, place, denotes, -, -⟩ := Disk.writeText_eq_ok_iff.1 (putFile_eq_ok_iff.1 h)
  exact ⟨ran_of_run directory step, List.forall_mem_singleton.2 openable,
    List.forall_mem_singleton.2 ⟨place, denotes⟩⟩

theorem cons (first : Puts disk between here [file]) (rest : Puts between after here files) :
    Puts disk after here (file :: files) := by
  have mem := List.mem_singleton_self file
  refine ⟨.cons first.ran rest.ran, List.forall_mem_cons.2 ⟨first.openable file mem, rest.openable⟩,
    List.forall_mem_cons.2 ⟨first.entry file mem, fun next hnext => ?_⟩⟩
  obtain ⟨l, later⟩ := rest.entry next hnext
  exact ⟨l, first.ran.same.denotes_iff.1 later⟩

theorem same (h : Puts disk after here files) : SameDirectories disk after := h.ran.same

theorem others (h : Puts disk after here files) (l : Location)
    (none : ∀ file ∈ files, ¬disk.Denotes here file.name l) : after.node? l = disk.node? l :=
  (h.ran.left l).unique (.untouched (List.forall_mem_map.2 none) rfl)

/-- Under a name that shares its entry with none of the files, the same is read as before. -/
theorem fileUnder?_eq (h : Puts disk after here files) {name : String}
    (apart : ∀ file ∈ files, ¬disk.SameEntry here file.name name) :
    after.fileUnder? here name = disk.fileUnder? here name :=
  h.ran.fileUnder?_eq (List.forall_mem_map.2 apart)

/-- A file is read under its own name, if the other files have other entries. -/
theorem fileUnder?_of_mem (h : Puts disk after here files) (nodup : (files.map (·.name)).Nodup)
    (hfile : file ∈ files)
    (apart : ∀ next ∈ files, next.name ≠ file.name → ¬disk.SameEntry here next.name file.name) :
    after.fileUnder? here file.name = some (bytesOf file.source) := by
  obtain ⟨l, denotes⟩ := h.entry file hfile
  have openable := h.openable file hfile
  obtain ⟨before, later, rfl⟩ := List.append_of_mem hfile
  rw [List.map_append, List.map_cons, List.nodup_append, List.nodup_cons] at nodup
  obtain ⟨-, ⟨fresh, -⟩, -⟩ := nodup
  refine Disk.fileUnder?_eq_some_iff.2 ⟨openable, l, h.same.denotes_iff.2 denotes, ?_⟩
  refine (h.ran.left l).unique (.last List.map_append denotes (List.forall_mem_map.2 ?_) rfl)
  intro next hnext denotesNext
  refine apart next (by simp [hnext]) ?_ ⟨l, denotesNext, denotes⟩
  intro same
  exact fresh (same ▸ List.mem_map_of_mem hnext)

end Puts

theorem puts_of_forM {path : String} {here : Location} {files : List SourceUnit}
    {disk after : Disk} (directory : disk.node? here = some .directory)
    (h : (files.forM fun file => putFile path here file.name file.source).on disk =
      (.ok (), after)) : Puts disk after here files := by
  induction files generalizing disk with
  | nil =>
    cases h
    exact .nil _ here
  | cons file files ih =>
    obtain ⟨⟨⟩, between, putting, h⟩ := on_bind_eq_ok_iff.1 h
    have first : Puts disk between here [file] := .singleton directory putting
    exact .cons first (ih (first.same.keeps.directory here directory) h)

/-! ## Removing files -/

/-- The files of the names are taken away one after the other. -/
def Removes (disk after : Disk) (here : Location) (names : List String) : Prop :=
  Ran disk after here (names.map .remove)

namespace Removes

variable {disk after : Disk} {here : Location} {names : List String}

theorem same (h : Removes disk after here names) : SameDirectories disk after := Ran.same h

theorem others (h : Removes disk after here names) (l : Location)
    (none : ∀ name ∈ names, ¬disk.Denotes here name l) : after.node? l = disk.node? l :=
  (Ran.left h l).unique (.untouched (List.forall_mem_map.2 none) rfl)

theorem gone (h : Removes disk after here names) {name : String} (hname : name ∈ names)
    {l : Location} (denotes : disk.Denotes here name l) : after.node? l = none := by
  rcases Ran.left h l with ⟨none, -⟩ | @⟨before, later, last, parts, -, -, left⟩
  · exact absurd denotes (none _ (List.mem_map_of_mem hname))
  · have removed : last ∈ names.map .remove := by simp [parts]
    obtain ⟨_, -, rfl⟩ := List.mem_map.1 removed
    exact left

/-- Under a name that shares its entry with none of the names, the same is read as before. -/
theorem fileUnder?_eq (h : Removes disk after here names) {name : String}
    (apart : ∀ gone ∈ names, ¬disk.SameEntry here gone name) :
    after.fileUnder? here name = disk.fileUnder? here name :=
  Ran.fileUnder?_eq h (List.forall_mem_map.2 apart)

end Removes

/-! ## The manifest that is found -/

theorem validName_manifest : ValidName Manifest.fileName := by
  decide

/-- The manifest is read from the bytes under its name. -/
theorem manifest?_eq_bind (disk : Disk) (here : Location) :
    manifest? disk here =
      (disk.fileUnder? here Manifest.fileName).bind fun bytes =>
        (Disk.textOf bytes).toOption.bind fun text => (Manifest.read text).toOption := by
  unfold manifest? Disk.readText Disk.fileUnder?
  cases disk.locate (some here) Manifest.fileName with
  | error e => rfl
  | ok l =>
    simp only [bind, Except.bind]
    cases disk.bytesAt l <;> rfl

/-! ## All phases -/

/-- The names of the units that an earlier output has left behind. -/
def leftovers (disk : Disk) (here : Location) (output : Output) : List String :=
  (manifest? disk here).elim [] (stale · output)

/-- The disks between the phases of a store, from that with the directory opened to the last. -/
structure Stages (opened written cleaned after : Disk) (here : Location) (cacheKey : String)
    (output : Output) : Prop where
  puts : Puts opened written here output.units
  removes : Removes written cleaned here (leftovers opened here output)
  finishes : Puts cleaned after here
    [⟨Manifest.fileName, (Manifest.ofOutput cacheKey output).pretty⟩]

namespace Stages

variable {opened written cleaned after : Disk} {here : Location} {cacheKey : String}
  {output : Output}

/-- Up to the manifest, files have changed and no directories. -/
theorem sameUpToRemoval (h : Stages opened written cleaned after here cacheKey output) :
    SameDirectories opened cleaned :=
  h.puts.same.trans h.removes.same

theorem same (h : Stages opened written cleaned after here cacheKey output) :
    SameDirectories opened after :=
  h.sameUpToRemoval.trans h.finishes.same

end Stages

/-- A store that succeeds went through all phases. -/
theorem store_eq_ok {path cacheKey : String} {output : Output} {disk after : Disk} {m : Manifest}
    (h : (store path cacheKey output).on disk = (.ok m, after)) :
    m = .ofOutput cacheKey output ∧ ∃ here opened written cleaned,
      (openOrMake path).on disk = (.ok here, opened) ∧
      Stages opened written cleaned after here cacheKey output := by
  obtain ⟨here, opened, opening, h⟩ := on_bind_eq_ok_iff.1 h
  rw [on_get] at h
  obtain ⟨⟨⟩, written, writing, h⟩ := on_bind_eq_ok_iff.1 h
  obtain ⟨⟨⟩, cleaned, removing, h⟩ := on_bind_eq_ok_iff.1 h
  obtain ⟨⟨⟩, finished, finishing, h⟩ := on_bind_eq_ok_iff.1 h
  have directory := (openOrMake_place opening).2
  have puts := puts_of_forM directory writing
  have directory' := puts.same.keeps.directory here directory
  have removes : Removes written cleaned here (leftovers opened here output) :=
    ran_of_forM directory' (by rw [List.forM_eq_forM, List.forM_map]; exact removing)
  have directory'' := removes.same.keeps.directory here directory'
  cases h
  exact ⟨rfl, here, opened, written, cleaned, opening, puts, removes,
    .singleton directory'' finishing⟩

end HierarchyAccessors.OutputDirectory
