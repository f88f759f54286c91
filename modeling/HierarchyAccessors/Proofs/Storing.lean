import HierarchyAccessors.Proofs.CacheKeys
import HierarchyAccessors.Proofs.Storing.Phases

/-!
# What storing an output leaves behind

Storing writes units over what is there, takes the stale ones away and writes the manifest. Into a
directory without files, or with the files of an earlier output and no others, it leaves the files
of the new output and no others (`store_spec`), whatever the earlier output was.
-/

namespace HierarchyAccessors

open Disk (PlainName ValidName Keeps Adds bytesOf)
open RunM

/-! ## The files of an output -/

/-- Files with entries put over them. -/
def overlay (entries : List (String × List UInt8)) (files : List String → Option (List UInt8)) :
    List String → Option (List UInt8)
  | [name] => (entries.lookup name).or (files [name])
  | names => files names

/-- The units of an output as files. -/
def Output.entries (output : Output) : List (String × List UInt8) :=
  output.units.map fun unit => (unit.name, bytesOf unit.source)

/-- The manifest of an output as a file. -/
def Output.manifestEntry (cacheKey : String) (output : Output) : String × List UInt8 :=
  (Manifest.fileName, bytesOf (Manifest.ofOutput cacheKey output).pretty)

/-- The files that an output consists of: its units and its manifest. -/
def Output.files (cacheKey : String) (output : Output) : List String → Option (List UInt8) :=
  overlay [output.manifestEntry cacheKey] (overlay output.entries fun _ => none)

/-- The units of an output have distinct names, each of which stands for an entry of the directory
itself. -/
structure Output.WellNamed (output : Output) : Prop where
  plain : ∀ unit ∈ output.units, PlainName unit.name
  nodup : (output.units.map (·.name)).Nodup

theorem lookup_eq_none_iff_not_mem {entries : List (String × List UInt8)} {name : String} :
    entries.lookup name = none ↔ name ∉ entries.map (·.1) := by
  rw [List.lookup_eq_none_iff, List.mem_map]
  constructor
  · rintro h ⟨e, he, rfl⟩
    simpa using h e he
  · intro h e he
    simp only [bne_iff_ne]
    rintro rfl
    exact h ⟨e, he, rfl⟩

/-- Under distinct names every unit is found. -/
theorem lookup_of_nodup {units : List SourceUnit} (nodup : (units.map (·.name)).Nodup)
    {unit : SourceUnit} (hunit : unit ∈ units) :
    (units.map fun unit => (unit.name, bytesOf unit.source)).lookup unit.name =
      some (bytesOf unit.source) := by
  obtain ⟨before, later, rfl⟩ := List.append_of_mem hunit
  rw [List.map_append, List.map_cons, List.nodup_append] at nodup
  obtain ⟨-, -, notBefore⟩ := nodup
  rw [List.lookup_eq_some_iff]
  refine ⟨_, _, List.map_append, ?_⟩
  intro e he
  obtain ⟨earlier, hearlier, rfl⟩ := List.mem_map.1 he
  have other := notBefore _ (List.mem_map_of_mem hearlier) _ List.mem_cons_self
  simpa using other.symm

theorem names_entries (output : Output) :
    output.entries.map (·.1) = output.units.map (·.name) := by
  rw [Output.entries, List.map_map]
  rfl

/-- There is a file for each unit, and the manifest. -/
theorem Output.isSome_files_iff {output : Output} {cacheKey name : String} :
    (output.files cacheKey [name]).isSome = true ↔
      name = Manifest.fileName ∨ name ∈ output.units.map (·.name) := by
  simp only [files, overlay, Option.or_none, Option.isSome_or, Bool.or_eq_true,
    ← Option.ne_none_iff_isSome, ne_eq, lookup_eq_none_iff_not_mem, not_not, names_entries,
    manifestEntry, List.map_cons, List.map_nil, List.mem_singleton]

namespace OutputDirectory

/-! ## Writing the files -/

theorem Puts.validName {units : List SourceUnit} {disk after : Disk} {here : Location}
    (h : Puts disk after here units) (plain : ∀ unit ∈ units, PlainName unit.name) :
    ∀ unit ∈ units, ValidName unit.name := by
  intro unit hunit
  exact (plain unit hunit).openable_iff.1 (h.openable unit hunit)

/-- The units are put over what is there. -/
theorem Puts.files {units : List SourceUnit} {disk after : Disk} {here : Location}
    (h : Puts disk after here units) (plain : ∀ unit ∈ units, PlainName unit.name)
    (nodup : (units.map (·.name)).Nodup) (directory : disk.node? here = some .directory) :
    after.files here =
      overlay (units.map fun unit => (unit.name, bytesOf unit.source)) (disk.files here) := by
  have others (names : List String) (h' : ∀ unit ∈ units, names ≠ [unit.name]) :
      after.files here names = disk.files here names := by
    have kept : after.node? (here ++ names) = disk.node? (here ++ names) := by
      apply h.others
      intro unit hunit bad
      rw [(plain unit hunit).denotes_iff directory, List.append_cancel_left_eq] at bad
      exact h' unit hunit bad
    rw [Disk.files, Disk.files, kept]
  funext names
  rcases names with _ | ⟨name, _ | ⟨second, more⟩⟩
  · exact others [] (by simp)
  · by_cases mem : name ∈ units.map (·.name)
    · obtain ⟨unit, hunit, rfl⟩ := List.mem_map.1 mem
      have valid := h.validName plain unit hunit
      rw [overlay, lookup_of_nodup nodup hunit, Option.some_or,
        ← valid.fileUnder?_eq (h.same.keeps.directory here directory)]
      apply h.fileUnder?_of_mem nodup hunit
      intro next hnext ne shared
      exact ne ((plain next hnext).eq_of_sameEntry valid.toPlainName directory shared)
    · have absent : (units.map fun unit => (unit.name, bytesOf unit.source)).lookup name =
          none := by
        rw [lookup_eq_none_iff_not_mem, List.map_map]
        exact mem
      rw [overlay, absent, Option.none_or]
      apply others
      rintro unit hunit ⟨⟩
      exact mem (List.mem_map_of_mem hunit)
  · exact others _ (by simp)

/-! ## Taking stale units away -/

/-- Of what is there, the files of the names are taken away. -/
theorem Removes.files {names : List String} {disk after : Disk} {here : Location}
    (h : Removes disk after here names) (plain : ∀ name ∈ names, PlainName name)
    (directory : disk.node? here = some .directory) :
    after.files here = fun place =>
      if place ∈ names.map ([·]) then none else disk.files here place := by
  funext place
  by_cases mem : place ∈ names.map ([·])
  · obtain ⟨name, hname, rfl⟩ := List.mem_map.1 mem
    have gone := h.gone hname (((plain name hname).denotes_iff directory).2 rfl)
    rw [if_pos mem, Disk.files, gone]
  · have kept : after.node? (here ++ place) = disk.node? (here ++ place) := by
      apply h.others
      intro name hname bad
      rw [(plain name hname).denotes_iff directory, List.append_cancel_left_eq] at bad
      exact mem (List.mem_map.2 ⟨name, hname, bad.symm⟩)
    rw [if_neg mem, Disk.files, Disk.files, kept]

/-! ## The manifest that is found -/

theorem manifest?_eq_none {disk : Disk} {here : Location}
    (directory : disk.node? here = some .directory) (empty : disk.files here = fun _ => none) :
    manifest? disk here = none := by
  rw [manifest?_eq_bind, validName_manifest.fileUnder?_eq directory, empty]
  rfl

/-- A manifest is found under its name as it was written. -/
theorem manifest?_eq_some {disk : Disk} {here : Location} {m : Manifest}
    (read : disk.fileUnder? here Manifest.fileName = some (bytesOf m.pretty)) :
    manifest? disk here = some m := by
  rw [manifest?_eq_bind, read, Option.bind_some, Disk.textOf_bytesOf]
  show (Manifest.read _).toOption = _
  rw [Manifest.read_pretty]
  rfl

/-- Among the files of an output its manifest is found. -/
theorem manifest?_of_files {disk : Disk} {here : Location} {cacheKey : String} {output : Output}
    (directory : disk.node? here = some .directory)
    (files : disk.files here = output.files cacheKey) :
    manifest? disk here = some (.ofOutput cacheKey output) := by
  apply manifest?_eq_some
  rw [validName_manifest.fileUnder?_eq directory, files]
  simp [Output.files, overlay, Output.manifestEntry]

/-! ## Storing -/

/-- The directory holds no files, or those of one output and no others. -/
inductive Holds (files : List String → Option (List UInt8)) : Option Manifest → Prop
  | nothing : files = (fun _ => none) → Holds files none
  | output {cacheKey : String} {output : Output} : output.WellNamed →
    files = output.files cacheKey → Holds files (some (.ofOutput cacheKey output))

theorem Holds.manifest? {disk : Disk} {here : Location} {manifest : Option Manifest}
    (directory : disk.node? here = some .directory) (h : Holds (disk.files here) manifest) :
    OutputDirectory.manifest? disk here = manifest := by
  cases h with
  | nothing empty => exact manifest?_eq_none directory empty
  | output _ files => exact manifest?_of_files directory files

theorem mem_stale_iff {cacheKey name : String} {earlier output : Output} :
    name ∈ stale (.ofOutput cacheKey earlier) output ↔
      name ∈ earlier.units.map (·.name) ∧ name ≠ Manifest.fileName ∧
        name ∉ output.units.map (·.name) := by
  rw [stale, List.mem_filter, Bool.and_eq_true, bne_iff_ne, Bool.not_eq_true',
    ← Bool.not_eq_true, List.contains_iff_mem]
  rfl

/-- Stale names are names of units, so they are plain. -/
theorem Holds.plain_stale {files : List String → Option (List UInt8)} {previous : Option Manifest}
    (holds : Holds files previous) (output : Output) :
    ∀ name ∈ previous.elim [] (stale · output), PlainName name := by
  cases holds with
  | nothing => simp
  | output wellNamed =>
    intro name h
    obtain ⟨⟨unit, hunit, rfl⟩, -⟩ := (mem_stale_iff.1 h).imp_left List.mem_map.1
    exact wellNamed.plain unit hunit

/-- An entry of the earlier output is replaced, or is stale, or is the manifest. -/
theorem lookup_over_earlier {cacheKey name : String} {earlier output : Output}
    (h : name ≠ Manifest.fileName) :
    (if name ∈ stale (.ofOutput cacheKey earlier) output then none
      else (output.entries.lookup name).or (earlier.entries.lookup name)) =
      output.entries.lookup name := by
  cases found : output.entries.lookup name with
  | some bytes =>
    have present : name ∈ output.units.map (·.name) := by
      rw [← names_entries]
      by_contra absent
      rw [lookup_eq_none_iff_not_mem.2 absent] at found
      cases found
    have fresh : ¬name ∈ stale (.ofOutput cacheKey earlier) output := fun isStale =>
      (mem_stale_iff.1 isStale).2.2 present
    rw [if_neg fresh, Option.some_or]
  | none =>
    rw [lookup_eq_none_iff_not_mem, names_entries] at found
    by_cases old : name ∈ earlier.units.map (·.name)
    · rw [if_pos (mem_stale_iff.2 ⟨old, h, found⟩)]
    · rw [← names_entries, ← lookup_eq_none_iff_not_mem] at old
      rw [old, Option.or_none, ite_self]

/-- What the units of an output do not replace is stale, so nothing of the earlier files stays. -/
theorem overlay_of_holds {files : List String → Option (List UInt8)} {previous : Option Manifest}
    (holds : Holds files previous) (cacheKey : String) (output : Output) :
    overlay [output.manifestEntry cacheKey] (fun place =>
        if place ∈ (previous.elim [] (stale · output)).map ([·]) then none
        else overlay output.entries files place) =
      output.files cacheKey := by
  cases holds with
  | nothing empty => simp [empty, Output.files]
  | @output key earlier wellNamed files =>
    funext place
    match place with
    | [] => simp [overlay, Output.files, files]
    | _ :: _ :: _ => simp [overlay, Output.files, files]
    | [name] =>
      by_cases manifest : name = Manifest.fileName
      · subst manifest
        simp [overlay, Output.files, Output.manifestEntry]
      · have other (cacheKey : String) (output : Output) :
            [output.manifestEntry cacheKey].lookup name = none := by
          simp [Output.manifestEntry, List.lookup_cons, beq_eq_false_iff_ne.2 manifest]
        simp only [overlay, Output.files, files, other, Option.none_or, Option.or_none,
          Option.elim_some, List.mem_map, List.cons.injEq, and_true, exists_eq_right]
        exact lookup_over_earlier manifest

/-- **Storing leaves the files of the output and no others** in a directory that held no files, or
those of another output and no others. -/
theorem store_spec {path cacheKey : String} {output : Output} {disk after : Disk} {m : Manifest}
    {previous : Option Manifest} (wellNamed : output.WellNamed)
    (holds : Holds (disk.files (disk.place path)) previous)
    (h : (store path cacheKey output).on disk = (.ok m, after)) :
    m = .ofOutput cacheKey output ∧ Keeps disk after ∧
      after.openDirectory none path = .ok (disk.place path) ∧
      after.files (disk.place path) = output.files cacheKey ∧
      ∀ unit ∈ output.units, ValidName unit.name := by
  obtain ⟨rfl, here, opened, written, cleaned, opening, stages⟩ := store_eq_ok h
  have later := stages.same.keeps
  obtain ⟨puts, removes, finishes⟩ := stages
  obtain ⟨adds, isOpen⟩ := openOrMake_spec opening
  obtain ⟨rfl, directory⟩ := openOrMake_place opening
  have directory' := puts.same.keeps.directory _ directory
  have directory'' := removes.same.keeps.directory _ directory'
  rw [← adds.files] at holds
  rw [leftovers, holds.manifest? directory] at removes
  refine ⟨rfl, adds.toKeeps.trans later, later.openDirectory isOpen, ?_,
    puts.validName wellNamed.plain⟩
  have manifest : ∀ file ∈ [SourceUnit.mk Manifest.fileName
      (Manifest.ofOutput cacheKey output).pretty], PlainName file.name := by
    simpa using validName_manifest.toPlainName
  rw [finishes.files manifest (by simp) directory'',
    removes.files (holds.plain_stale output) directory',
    puts.files wellNamed.plain wellNamed.nodup directory, ← overlay_of_holds holds cacheKey output]
  rfl

/-- Outside of the directory files stay as they were. -/
theorem files_of_store {path cacheKey : String} {output : Output} {disk after : Disk} {m : Manifest}
    {previous : Option Manifest} (wellNamed : output.WellNamed)
    (holds : Holds (disk.files (disk.place path)) previous)
    (h : (store path cacheKey output).on disk = (.ok m, after)) {l : Location}
    (outside : ¬disk.place path <+: l) : after.files [] l = disk.files [] l := by
  obtain ⟨-, here, opened, -, -, opening, -⟩ := store_eq_ok h
  have adds := (openOrMake_spec opening).1
  obtain ⟨rfl, directory⟩ := openOrMake_place opening
  rw [← adds.files] at holds
  have ran := ran_of_store opening directory h
  rw [holds.manifest? directory] at ran
  have plain : ∀ step ∈ fileSteps previous cacheKey output, PlainName step.name :=
    forall_mem_fileSteps.2
      ⟨wellNamed.plain, holds.plain_stale output, validName_manifest.toPlainName⟩
  have untouched : after.node? l = opened.node? l := by
    refine (ran.left l).unique (.untouched (fun step hstep denotes => outside ?_) rfl)
    rw [(plain step hstep).denotes_iff directory] at denotes
    exact ⟨_, denotes.symm⟩
  rw [← adds.files, Disk.files, Disk.files, List.nil_append, untouched]

/-! ## Storing succeeds -/

/-- A step succeeds under a valid name, unless a directory stands in the way. -/
theorem FileStep.run_succeeds (path : String) {here : Location} {step : FileStep} {disk : Disk}
    (valid : ValidName step.name) (directory : disk.node? here = some .directory)
    (free : ∀ name, disk.node? (here ++ [name]) ≠ some .directory) :
    ∃ after, (step.run path here).on disk = (.ok (), after) := by
  have denotes := (valid.toPlainName.denotes_iff directory).2 rfl
  have openable := valid.toPlainName.openable_iff.2 valid
  cases step with
  | put file =>
    exact ⟨_, putFile_eq_ok_iff.2
      (Disk.writeText_eq_ok_iff.2 ⟨openable, _, denotes, free file.name, rfl⟩)⟩
  | remove name =>
    have removing : disk.removeFile here name = .ok (disk.erase (here ++ [name])) ∨
        disk.removeFile here name = .error .notFound :=
      Disk.removeFile_of_openable directory openable denotes (free name)
    rw [FileStep.run, removeFile_on]
    rcases removing with done | missing
    · rw [done]
      exact ⟨_, rfl⟩
    · rw [missing]
      exact ⟨_, rfl⟩

/-- No step makes a directory, so none gets in the way of the next. -/
theorem forM_run_succeeds (path : String) {here : Location} {steps : List FileStep} {disk : Disk}
    (valid : ∀ step ∈ steps, ValidName step.name) (directory : disk.node? here = some .directory)
    (free : ∀ name, disk.node? (here ++ [name]) ≠ some .directory) :
    ∃ after, (steps.forM (·.run path here)).on disk = (.ok (), after) := by
  induction steps generalizing disk with
  | nil => exact ⟨disk, rfl⟩
  | cons step steps ih =>
    obtain ⟨first, more⟩ := List.forall_mem_cons.1 valid
    obtain ⟨between, ran⟩ := FileStep.run_succeeds path first directory free
    have same := (ran_of_run directory ran).same
    obtain ⟨after, rest⟩ := ih more (same.keeps.directory here directory) fun name =>
      mt (same.kept.directory _) (free name)
    exact ⟨after, on_bind_eq_ok_iff.2 ⟨(), between, ran, rest⟩⟩

/-- Into a directory without directories in it every output can be stored, if the names of its
units are valid, and those that are listed there. -/
theorem store_succeeds {path cacheKey : String} {output : Output} {disk opened : Disk}
    {here : Location} (opening : (openOrMake path).on disk = (.ok here, opened))
    (valid : ∀ unit ∈ output.units, ValidName unit.name)
    (listed : ∀ m ∈ manifest? opened here, ∀ name ∈ m.units, ValidName name)
    (free : ∀ name, opened.node? (here ++ [name]) ≠ some .directory) :
    ∃ after, (store path cacheKey output).on disk = (.ok (.ofOutput cacheKey output), after) := by
  have directory := (openOrMake_place opening).2
  have isStale : ∀ name ∈ (manifest? opened here).elim [] (stale · output), ValidName name := by
    intro name hname
    cases found : manifest? opened here with
    | none => simp [found] at hname
    | some m =>
      rw [found] at hname
      exact listed m found name (List.mem_filter.1 hname).1
  have steps : ∀ step ∈ fileSteps (manifest? opened here) cacheKey output,
      ValidName step.name :=
    forall_mem_fileSteps.2 ⟨valid, isStale, validName_manifest⟩
  obtain ⟨after, ran⟩ := forM_run_succeeds path steps directory free
  refine ⟨after, ?_⟩
  rw [store_on opening]
  exact on_bind_eq_ok_iff.2 ⟨(), after, ran, rfl⟩

/-! ## Storing fails on the disk only -/

theorem failsOnDisk_openIfPresent (path : String) : FailsOnDisk (openIfPresent path) := by
  intro disk e h
  rw [openIfPresent_on] at h
  split at h
  · cases h
  · cases h
  · cases h
    exact ⟨_, _, rfl⟩

theorem failsOnDisk_make (path : String) : FailsOnDisk (make path) := by
  intro disk e h
  rw [make_on] at h
  cases result : (disk.makeDirectories path).2 with
  | ok _ =>
    rw [result] at h
    cases h
  | error cause =>
    rw [result] at h
    cases h
    exact ⟨_, _, rfl⟩

theorem failsOnDisk_removeFile (path : String) (here : Location) (name : String) :
    FailsOnDisk (removeFile path here name) := by
  intro disk e h
  rw [removeFile_on] at h
  split at h
  · cases h
  · cases h
  · cases h
    exact ⟨_, _, rfl⟩

/-- An output is stored, or the disk is to blame. -/
theorem failsOnDisk_store (path cacheKey : String) (output : Output) :
    FailsOnDisk (store path cacheKey output) := by
  have opening : FailsOnDisk (openOrMake path) := by
    refine (failsOnDisk_openIfPresent path).bind fun opened => ?_
    cases opened with
    | some here => exact failsOnDisk_pure here
    | none => exact (failsOnDisk_make path).bind fun _ => failsOnDisk_look _ _
  refine opening.bind fun here => FailsOnDisk.get_bind fun disk => ?_
  refine (FailsOnDisk.forM fun unit => failsOnDisk_change _ _).bind fun _ => ?_
  refine (FailsOnDisk.forM fun name => failsOnDisk_removeFile path here name).bind fun _ => ?_
  exact (failsOnDisk_change _ _).bind fun _ => failsOnDisk_pure _

end OutputDirectory

end HierarchyAccessors
