import HierarchyAccessors.Proofs.Emission
import HierarchyAccessors.Proofs.Outcomes

/-!
# A single run into an absent directory

Run once and without a cache into a directory that is not there, a snapshot leaves files that depend
on nothing but the snapshot (`FreshRun.eq`). Such a run can always be made where the names of the
units can be names of files (`freshRun_of_read`): on a disk that holds a text of the snapshot and
nothing else.
-/

namespace HierarchyAccessors

open Disk (ValidName)
open OutputDirectory RunM

/-! ## Names of units -/

/-- The names of the units of a snapshot have no slashes. -/
def Snapshot.SlashFree (s : Snapshot) : Prop :=
  ∀ unit ∈ s.output.units, '/' ∉ unit.name.toList

/-- The name of a unit has a suffix, so unless it has a slash it stands for an entry. -/
theorem wellNamed_output {s : Snapshot} (slashFree : s.SlashFree) : s.output.WellNamed := by
  refine ⟨fun unit h => ?_, nodup_names_generate _ _⟩
  obtain ⟨stem, eq⟩ := exists_stem_of_mem_generate h
  have long : 5 ≤ unit.name.toList.length := by
    rw [eq, String.toList_append, List.length_append]
    exact Nat.le_add_left 5 _
  refine ⟨slashFree unit h, ?_, ?_, ?_⟩ <;> rintro bad <;> rw [bad] at long <;>
    exact absurd long (by decide)

theorem wellNamed_of_valid {s : Snapshot} (valid : ∀ unit ∈ s.output.units, ValidName unit.name) :
    s.output.WellNamed :=
  ⟨fun unit h => (valid unit h).toPlainName, nodup_names_generate _ _⟩

/-! ## Runs that succeed -/

section

variable {config : Config} {disk after : Disk} {s : Snapshot}
  (read : config.reading.found disk = .ok s) (real : config.dryRun = false)
  (accepted : config.checkStrict s.output.diagnostics.length = .ok ())

include read real accepted

/-- A run that finds nothing to use again writes, if that succeeds. -/
theorem run_writes {m : Manifest} (nothing : (config.reusable s.cacheKey).found disk = .ok none)
    (stored : (store config.outDir s.cacheKey s.output).on disk = (.ok m, after)) :
    (run config).on disk = (.ok (.written m), after) := by
  have plan : config.plan disk = .ok (.store s.cacheKey s.output) := by
    rw [Config.plan_eq read, nothing]
    simp only [Config.planFor, bind, Except.bind, accepted, real]
    rfl
  rw [run_on, plan]
  exact on_bind_eq_ok_iff.2 ⟨m, after, stored, rfl⟩

/-- A run with the cache uses the output again where the directory holds its files. -/
theorem run_reuses {here : Location} (cache : config.cache = true)
    (isOpen : disk.openDirectory none config.outDir = .ok here)
    (valid : ∀ unit ∈ s.output.units, ValidName unit.name)
    (files : disk.files here = s.output.files s.cacheKey) :
    (run config).on disk = (.ok (.cached (.ofOutput s.cacheKey s.output)), disk) := by
  have directory := (Disk.openDirectory_eq_ok_iff.1 isOpen).2
  have present : ∀ name ∈ (Manifest.ofOutput s.cacheKey s.output).units,
      disk.isFile here name = true := by
    intro name hname
    obtain ⟨unit, hunit, rfl⟩ := List.mem_map.1 hname
    rw [Disk.isFile_eq, (valid unit hunit).fileUnder?_eq directory, files]
    exact Output.isSome_files_iff.2 (.inr (List.mem_map_of_mem hunit))
  have again : (config.reusable s.cacheKey).found disk =
      .ok (some (.ofOutput s.cacheKey s.output)) := by
    have intact : (intactManifest config.outDir s.cacheKey).on disk =
        (.ok (some (.ofOutput s.cacheKey s.output)), disk) :=
      (intactManifest_eq_some_iff isOpen).2 ⟨manifest?_of_files directory files, rfl, present⟩
    rw [Config.reusable, if_pos ⟨cache, by simp [real]⟩, found, intact]
  have plan : config.plan disk = .ok (.settled (.cached (.ofOutput s.cacheKey s.output))) := by
    have length : (Manifest.ofOutput s.cacheKey s.output).diagnostics.length =
        s.output.diagnostics.length := List.length_map _
    rw [Config.plan_eq read, again]
    simp only [Config.planFor, bind, Except.bind, length, accepted]
    rfl
  rw [run_on, plan]
  rfl

end

/-! ## The run -/

/-- There is no directory at the path, and nothing in its place or below. The first alone does not
say the second: `missing/../out` cannot be opened even where `out` is full. -/
structure Absent (outDir : String) (disk : Disk) : Prop where
  notFound : disk.openDirectory none outDir = .error .notFound
  nothing : ∀ names, disk.node? (disk.place outDir ++ names) = none

theorem Absent.files {outDir : String} {disk : Disk} (absent : Absent outDir disk) :
    disk.files (disk.place outDir) = fun _ => none := by
  funext names
  rw [Disk.files, absent.nothing]

/-- Run once and without a cache into a directory that is absent, on some disk, the snapshot gives
the manifest and leaves the files. -/
def FreshRun (s : Snapshot) (m : Manifest) (files : List String → Option (List UInt8)) : Prop :=
  ∃ config disk after, config.cache = false ∧ Absent config.outDir disk ∧
    config.snapshots disk = [s] ∧ (run config).on disk = (.ok (.written m), after) ∧
    after.files (after.place config.outDir) = files

/-- What a single run leaves depends on the snapshot alone. -/
theorem FreshRun.eq {s : Snapshot} {m : Manifest} {files : List String → Option (List UInt8)}
    (slashFree : s.SlashFree) (h : FreshRun s m files) :
    m = .ofOutput s.cacheKey s.output ∧ files = s.output.files s.cacheKey := by
  obtain ⟨config, disk, after, -, absent, read, ran, rfl⟩ := h
  obtain ⟨t, found, stored⟩ := run_eq_written ran
  rw [Config.snapshots_eq_singleton_iff.2 found] at read
  cases read
  obtain ⟨manifest, keeps, -, files, -⟩ :=
    store_spec (wellNamed_output slashFree) (.nothing absent.files) stored
  rw [keeps.place]
  exact ⟨manifest, files⟩

/-! ## Runs in a working directory -/

/-- The text of the file `in`, whatever else the working directory holds. -/
theorem readFileText_in {disk : Disk} {text : String}
    (isOpen : disk.openDirectory none "." = .ok ["work"])
    (file : disk.node? ["work", "in"] = some (.file (Disk.bytesOf text))) :
    (readFileText "in").on disk = (.ok text, disk) := by
  have name : Path.fileName? "in" = some "in" := by decide
  have parent : Path.parent "in" = "" := by decide
  have directory := (Disk.openDirectory_eq_ok_iff.1 isOpen).2
  have bytes : disk.bytesAt (["work"] ++ ["in"]) = .ok (Disk.bytesOf text) := by
    rw [List.singleton_append, Disk.bytesAt, file]
  have read : disk.readText ["work"] "in" = .ok text := by
    rw [Disk.readText_eq (by decide) directory, bytes]
    exact Disk.textOf_bytesOf text
  simp only [readFileText, name, parent, if_true]
  rw [on_bind, on_look, isOpen]
  show (look "in" (·.readText ["work"] "in")).on disk = _
  rw [on_look, read]
  rfl

theorem reading_in {config : Config} {disk : Disk} {text : String} {s : Snapshot}
    (path : config.snapshot = some "in") (h : Snapshot.read text = .ok s)
    (isOpen : disk.openDirectory none "." = .ok ["work"])
    (file : disk.node? ["work", "in"] = some (.file (Disk.bytesOf text))) :
    config.reading.found disk = .ok s := by
  have read : (readSnapshot "in").on disk = (.ok s, disk) := by
    rw [readSnapshot, on_bind, readFileText_in isOpen file]
    simp only [h]
    rfl
  rw [found, Config.reading, Config.requiredSnapshot, path]
  exact congrArg Prod.fst read

/-- The working directory holds the text in the file `in`, and `out` can be opened or made there,
without directories in it. -/
structure Workplace (disk : Disk) (text : String) : Prop where
  isOpen : disk.openDirectory none "." = .ok ["work"]
  file : disk.node? ["work", "in"] = some (.file (Disk.bytesOf text))
  opening : ∃ opened, (openOrMake "out").on disk = (.ok ["work", "out"], opened) ∧
    ∀ name, opened.node? ["work", "out", name] ≠ some .directory

namespace Workplace

variable {disk : Disk} {text : String}

/-- A run that finds nothing to use again can write over an earlier output, and leaves a place
where runs can go on. -/
theorem exists_written (place : Workplace disk text) {s : Snapshot}
    (h : Snapshot.read text = .ok s) (valid : ∀ unit ∈ s.output.units, ValidName unit.name)
    {previous : Option Manifest} (holds : Holds (disk.files ["work", "out"]) previous)
    (listed : ∀ m ∈ previous, ∀ name ∈ m.units, ValidName name) {cache : Bool}
    (nothing : (({ snapshot := some "in", outDir := "out", cache : Config }).reusable
      s.cacheKey).found disk = .ok none) :
    ∃ after, (run { snapshot := some "in", outDir := "out", cache }).on disk =
        (.ok (.written (.ofOutput s.cacheKey s.output)), after) ∧
      Workplace after text ∧ after.openDirectory none "out" = .ok ["work", "out"] ∧
      after.files ["work", "out"] = s.output.files s.cacheKey := by
  obtain ⟨opened, opening, free⟩ := place.opening
  have adds := (openOrMake_spec opening).1
  obtain ⟨here, directory⟩ := openOrMake_place opening
  have wellNamed := wellNamed_of_valid valid
  have found : manifest? opened ["work", "out"] = previous :=
    Holds.manifest? directory (by rwa [adds.files])
  obtain ⟨after, stored⟩ := store_succeeds opening valid (by rwa [found]) free
  rw [here] at holds
  obtain ⟨-, keeps, again, files, -⟩ := store_spec wellNamed holds stored
  rw [← here] at again files
  have file : after.node? ["work", "in"] = some (.file (Disk.bytesOf text)) := by
    have same := files_of_store wellNamed holds stored (l := ["work", "in"]) (by simp [← here])
    rw [← List.nil_append ["work", "in"], ← Disk.files_eq_some_iff, same]
    exact Disk.files_eq_some_iff.2 place.file
  have noDirectory (name : String) : after.node? ["work", "out", name] ≠ some .directory :=
    mt ((ran_of_store opening directory stored).same.kept.directory _) (free name)
  have read : ({ snapshot := some "in", outDir := "out", cache : Config }).reading.found disk =
      .ok s := reading_in rfl h place.isOpen place.file
  exact ⟨after, run_writes read rfl rfl nothing stored,
    ⟨keeps.openDirectory place.isOpen, file, after, openOrMake_of_openDirectory again, noDirectory⟩,
    again, files⟩

end Workplace

/-- A disk with nothing but a file with the text, in the working directory. -/
def Disk.holding (text : String) : Disk :=
  ⟨[(["work"], .directory), (["work", "in"], .file (Disk.bytesOf text))], ["work"]⟩

theorem absent_holding (text : String) : Absent "out" (.holding text) := by
  constructor
  · rfl
  · intro names
    have place : (Disk.holding text).place "out" = ["work", "out"] := rfl
    rw [place]
    rfl

theorem workplace_holding (text : String) : Workplace (.holding text) text where
  isOpen := rfl
  file := rfl
  opening := by
    refine ⟨(Disk.holding text).set ["work", "out"] .directory, by rfl, fun name => ?_⟩
    exact nofun

/-- The run succeeds if the names of the units can be names of files. -/
theorem run_holding {text : String} {s : Snapshot} (h : Snapshot.read text = .ok s)
    (valid : ∀ unit ∈ s.output.units, ValidName unit.name) (cache : Bool) :
    ∃ after, (run { snapshot := some "in", outDir := "out", cache }).on (.holding text) =
        (.ok (.written (.ofOutput s.cacheKey s.output)), after) ∧
      Workplace after text ∧ after.openDirectory none "out" = .ok ["work", "out"] ∧
      after.files ["work", "out"] = s.output.files s.cacheKey := by
  have nothing : (({ snapshot := some "in", outDir := "out", cache : Config }).reusable
      s.cacheKey).found (.holding text) = .ok none := by
    unfold Config.reusable
    split
    · rw [intactManifest_found, (absent_holding text).notFound]
    · rfl
  exact (workplace_holding text).exists_written h valid (.nothing (absent_holding text).files)
    (by simp) nothing

theorem freshRun_of_read {text : String} {s : Snapshot} (h : Snapshot.read text = .ok s)
    (valid : ∀ unit ∈ s.output.units, ValidName unit.name) :
    FreshRun s (.ofOutput s.cacheKey s.output) (s.output.files s.cacheKey) := by
  obtain ⟨after, ran, -, isOpen, files⟩ := run_holding h valid false
  have here : after.place "out" = ["work", "out"] := (Disk.openDirectory_eq_place isOpen).symm
  refine ⟨_, _, after, rfl, absent_holding text, ?_, ran, here ▸ files⟩
  exact Config.snapshots_eq_singleton_iff.2 (reading_in rfl h rfl rfl)

end HierarchyAccessors
