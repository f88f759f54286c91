import HierarchyAccessors.Proofs.Storing.PartlyWritten
import HierarchyAccessors.Proofs.Storing.Update

/-!
# What a store that fails leaves behind

A disk may refuse a step of storing for reasons that it does not show, a file that must not be
written or a lack of room, and it may do so when the first bytes of a file are written. Nothing is
assumed of when that happens: storing stops at some step, and the steps before it were done
(`Interrupted`).

**Theorem (`store_failure_leaves`).** Where a manifest listed only units that were there, it is the
only one that can be read afterwards, and it counts as intact just if nothing has been removed yet.
So it does after a failure at a unit, and then the units that were written over are not those that
it was written for; a listed unit that was not written over is as it was, or it has been removed.

Which case it is depends on how far storing got (`StopsAt`): from the first removal on every unit
has been written, so nothing is put where something was removed (`Fate`).
-/

namespace HierarchyAccessors.OutputDirectory

open Disk (Openable PlainName SameDirectories bytesOf)
open RunM

/-! ## Steps that fail -/

/-- The file that a step was to put at an entry has been cut off there. -/
inductive CutOff (disk : Disk) (here : Location) : FileStep → Location → Option Node → Prop
  | first {file : SourceUnit} {l : Location} {bytes : List UInt8}
    (denotes : disk.Denotes here file.name l) (front : bytes <+: bytesOf file.source)
    (proper : bytes ≠ bytesOf file.source) : CutOff disk here (.put file) l (some (.file bytes))

/-- What a step leaves that fails, whatever the reason is: the disk as it was, or a file that was
cut off. -/
inductive Fails (disk : Disk) (here : Location) (step : FileStep) : Disk → Prop
  | refused : Fails disk here step disk
  | cutOff {l : Location} {bytes : List UInt8} (free : disk.node? l ≠ some .directory)
    (cut : CutOff disk here step l (some (.file bytes))) :
    Fails disk here step (disk.set l (.file bytes))

/-- Storing into the open directory stops at a step. The manifest there may not have been read, and
counts as none then. Where the directory itself is refused, no step was done. -/
structure Interrupted (disk after : Disk) (path : String) (here : Location) (cacheKey : String)
    (output : Output) (done : List FileStep) (failing : FileStep) : Prop where
  stops : ∃ previous later, (previous = manifest? disk here ∨ previous = none) ∧
    fileSteps previous cacheKey output = done ++ failing :: later
  fails : ∃ between, (done.forM (·.run path here)).on disk = (.ok (), between) ∧
    Fails between here failing after

/-- A store that fails of itself was interrupted at the step whose path it reports. -/
theorem interrupted_of_store {disk after : Disk} {path cacheKey : String} {here : Location}
    {output : Output} {e : RunError} (isOpen : disk.openDirectory none path = .ok here)
    (failed : (store path cacheKey output).on disk = (.error e, after)) :
    ∃ done failing cause, Interrupted disk after path here cacheKey output done failing ∧
      e = .disk (Path.join path failing.name) cause := by
  rw [store_on (openOrMake_of_openDirectory isOpen), on_bind_eq_error_iff] at failed
  rcases failed with failed | ⟨⟨⟩, between, -, failed⟩
  · obtain ⟨done, failing, later, between, parts, succeeded, failed⟩ := on_forM_eq_error failed
    obtain ⟨rfl, cause, error⟩ := FileStep.run_eq_error failed
    exact ⟨done, failing, cause, ⟨⟨_, later, .inl rfl, parts⟩, _, succeeded, .refused⟩, error⟩
  · cases failed

/-- Every entry holds what the steps before the failing one have left there, or a file that was cut
off. -/
theorem Interrupted.left {disk after : Disk} {path cacheKey : String} {here : Location}
    {output : Output} {done : List FileStep} {failing : FileStep}
    (h : Interrupted disk after path here cacheKey output done failing)
    (directory : disk.node? here = some .directory) :
    SameDirectories disk after ∧
      ∀ l, LeftAt disk here done l (after.node? l) ∨
        CutOff disk here failing l (after.node? l) := by
  obtain ⟨between, succeeded, fails⟩ := h.fails
  have ran := ran_of_forM directory succeeded
  cases fails with
  | refused => exact ⟨ran.same, fun l => .inl (ran.left l)⟩
  | @cutOff place bytes free cut =>
    obtain ⟨denotes, front, proper⟩ := cut
    refine ⟨ran.same.trans (Disk.sameDirectories_set denotes.ne_nil bytes free), fun l => ?_⟩
    rw [Disk.node?_set _ denotes.ne_nil]
    split
    · next own =>
      subst own
      exact .inr (.first (ran.same.denotes_iff.1 denotes) front proper)
    · exact .inl (ran.left l)

/-! ## How far storing got -/

/-- Storing stops at a unit, at a unit to be removed, or at the manifest, with the steps done that
come before. -/
inductive StopsAt (previous : Option Manifest) (cacheKey : String) (output : Output) :
    List FileStep → FileStep → Prop
  | atUnit {written rest : List SourceUnit} {unit : SourceUnit}
    (parts : output.units = written ++ unit :: rest) :
    StopsAt previous cacheKey output (written.map .put) (.put unit)
  | atRemoval {gone rest : List String} {name : String}
    (parts : previous.elim [] (stale · output) = gone ++ name :: rest) :
    StopsAt previous cacheKey output (output.units.map .put ++ gone.map .remove) (.remove name)
  | atManifest : StopsAt previous cacheKey output
    (output.units.map .put ++ (previous.elim [] (stale · output)).map .remove)
    (.put ⟨Manifest.fileName, (Manifest.ofOutput cacheKey output).pretty⟩)

/-- A place in two lists one after the other is in the first or in the second. -/
theorem append_cons_cases {α : Type} {as bs before later : List α} {a : α}
    (h : as ++ bs = before ++ a :: later) :
    (∃ rest, as = before ++ a :: rest) ∨
      ∃ between, before = as ++ between ∧ bs = between ++ a :: later := by
  rcases List.append_eq_append_iff.1 h with ⟨between, eq, eq'⟩ | ⟨_ | ⟨first, rest⟩, eq, eq'⟩
  · exact .inr ⟨between, eq, eq'⟩
  · exact .inr ⟨[], by simpa using eq.symm, eq'.symm⟩
  · obtain ⟨rfl, -⟩ := List.cons.inj eq'
    exact .inl ⟨rest, eq⟩

theorem stopsAt_of_fileSteps {previous : Option Manifest} {cacheKey : String} {output : Output}
    {done later : List FileStep} {failing : FileStep}
    (h : fileSteps previous cacheKey output = done ++ failing :: later) :
    StopsAt previous cacheKey output done failing := by
  rcases append_cons_cases h with ⟨_, parts⟩ | ⟨removed, rfl, tail⟩
  · obtain ⟨written, _, units, rfl, more⟩ := List.map_eq_append_iff.1 parts
    obtain ⟨unit, rest, rfl, rfl, -⟩ := List.map_eq_cons_iff.1 more
    exact .atUnit units
  · rcases append_cons_cases tail with ⟨_, parts⟩ | ⟨_ | ⟨_, _⟩, rfl, last⟩
    · obtain ⟨gone, _, names, rfl, more⟩ := List.map_eq_append_iff.1 parts
      obtain ⟨name, rest, rfl, rfl, -⟩ := List.map_eq_cons_iff.1 more
      exact .atRemoval names
    · obtain ⟨rfl, -⟩ := List.cons.inj last
      rw [List.append_nil]
      exact .atManifest
    · simp at last

/-- What was done are units that were put and then names that were removed. -/
theorem StopsAt.done_eq {previous : Option Manifest} {cacheKey : String} {output : Output}
    {done : List FileStep} {failing : FileStep}
    (h : StopsAt previous cacheKey output done failing) :
    ∃ (written : List SourceUnit) (gone : List String),
      done = written.map .put ++ gone.map .remove ∧
      (∀ unit ∈ written, unit ∈ output.units) ∧
      ∀ name ∈ gone, name ∈ previous.elim [] (stale · output) := by
  cases h with
  | @atUnit written rest unit parts =>
    exact ⟨written, [], (List.append_nil _).symm, by simp +contextual [parts], by simp⟩
  | @atRemoval gone rest name parts =>
    exact ⟨output.units, gone, rfl, fun _ => id, by simp +contextual [parts]⟩
  | atManifest => exact ⟨output.units, _, rfl, fun _ => id, fun _ => id⟩

/-- What has become of an entry. -/
inductive Fate (disk : Disk) (here : Location) (cacheKey : String) (output : Output)
    (done : List FileStep) (failing : FileStep) (l : Location) (node : Option Node) : Prop
  /-- No step was on it. -/
  | kept (none : ∀ step ∈ done, ¬disk.Denotes here step.name l) (same : node = disk.node? l)
  /-- A unit was put there, or the first of its bytes, and no name of the entry was removed. -/
  | written {unit : SourceUnit} {bytes : List UInt8} (mem : unit ∈ output.units)
    (denotes : disk.Denotes here unit.name l) (front : bytes <+: bytesOf unit.source)
    (stays : ∀ name, .remove name ∈ done → ¬disk.Denotes here name l)
    (left : node = some (.file bytes))
  | removed {name : String} (mem : .remove name ∈ done) (denotes : disk.Denotes here name l)
    (left : node = none)
  /-- The new manifest was cut off. -/
  | manifest {bytes : List UInt8}
    (last : failing = .put ⟨Manifest.fileName, (Manifest.ofOutput cacheKey output).pretty⟩)
    (denotes : disk.Denotes here Manifest.fileName l)
    (front : bytes <+: bytesOf (Manifest.ofOutput cacheKey output).pretty)
    (proper : bytes ≠ bytesOf (Manifest.ofOutput cacheKey output).pretty)
    (left : node = some (.file bytes))

theorem StopsAt.fate {previous : Option Manifest} {disk : Disk} {here : Location}
    {cacheKey : String} {output : Output} {done : List FileStep} {failing : FileStep} {l : Location}
    {node : Option Node} (h : StopsAt previous cacheKey output done failing)
    (left : LeftAt disk here done l node ∨ CutOff disk here failing l node) :
    Fate disk here cacheKey output done failing l node := by
  rcases left with left | ⟨denotes, front, proper⟩
  · obtain ⟨written, gone, eq, units, -⟩ := h.done_eq
    rcases left with ⟨none, same⟩ | @⟨before, later, step, parts, denotes, final, left⟩
    · exact .kept none same
    · cases step with
      | remove name =>
        have mem : FileStep.remove name ∈ done := by simp [parts]
        exact .removed mem denotes left
      | put unit =>
        rcases append_cons_cases (eq.symm.trans parts) with ⟨rest, puts⟩ | ⟨between, -, removes⟩
        · have mem : unit ∈ written := by
            have : FileStep.put unit ∈ written.map .put := by simp [puts]
            simpa using this
          refine .written (units unit mem) denotes List.prefix_rfl (fun name removed => ?_) left
          -- Before the last step on the entry there were units only.
          rw [parts] at removed
          rcases List.mem_append.1 removed with first | rest
          · have : FileStep.remove name ∈ written.map .put := by simp [puts, first]
            simp at this
          · exact final _ (by simpa using rest)
        · have : FileStep.put unit ∈ gone.map .remove := by simp [removes]
          simp at this
  · cases h with
    | atUnit parts => exact .written (by simp [parts]) denotes front (by simp) rfl
    | atManifest => exact .manifest rfl denotes front proper rfl

/-! ## Intact directories -/

/-- The directory is open, and the manifest in it lists only units that are there. -/
structure Intact (disk : Disk) (path : String) (here : Location) (m : Manifest) : Prop where
  isOpen : disk.openDirectory none path = .ok here
  found : manifest? disk here = some m
  present : ∀ name ∈ m.units, disk.isFile here name

theorem exists_denotes_of_isFile {disk : Disk} {here : Location} {name : String}
    (file : disk.isFile here name = true) : Openable name ∧
      ∃ l bytes, disk.Denotes here name l ∧ disk.node? l = some (.file bytes) := by
  rw [Disk.isFile_eq] at file
  obtain ⟨bytes, read⟩ := Option.isSome_iff_exists.1 file
  obtain ⟨openable, l, denotes, file⟩ := Disk.fileUnder?_eq_some_iff.1 read
  exact ⟨openable, l, bytes, denotes, file⟩

/-- Where the entry of the manifest is as it was, so is what can be read of it. -/
theorem manifest?_congr {disk after : Disk} {here l : Location} (same : SameDirectories disk after)
    (denotes : disk.Denotes here Manifest.fileName l) (kept : after.node? l = disk.node? l) :
    manifest? after here = manifest? disk here := by
  have read : after.fileUnder? here Manifest.fileName = disk.fileUnder? here Manifest.fileName := by
    refine same.fileUnder?_eq fun l' denotes' => ?_
    rwa [denotes'.unique denotes]
  rw [manifest?_eq_bind, manifest?_eq_bind, read]

/-- Nothing can be read of a manifest that was cut off. -/
theorem manifest?_of_cutOff {disk : Disk} {here l : Location} {m : Manifest} {bytes : List UInt8}
    (denotes : disk.Denotes here Manifest.fileName l) (left : disk.node? l = some (.file bytes))
    (front : bytes <+: bytesOf m.pretty) (proper : bytes ≠ bytesOf m.pretty) :
    manifest? disk here = none := by
  have openable := validName_manifest.toPlainName.openable_iff.2 validName_manifest
  have read := (denotes.fileUnder?_eq openable).trans (Disk.files_eq_some_iff.2 left)
  exact manifest?_of_prefix read front proper

namespace Intact

variable {disk after : Disk} {path cacheKey : String} {here : Location} {m : Manifest}
  {output : Output} {done : List FileStep} {failing : FileStep}

theorem directory (h : Intact disk path here m) : disk.node? here = some .directory :=
  (Disk.openDirectory_eq_ok_iff.1 h.isOpen).2

theorem exists_denotes_manifest (h : Intact disk path here m) : ∃ l,
    disk.Denotes here Manifest.fileName l := by
  have found := h.found
  rw [manifest?_eq_bind] at found
  obtain ⟨bytes, read, -⟩ := Option.bind_eq_some_iff.1 found
  obtain ⟨-, l, denotes, -⟩ := Disk.fileUnder?_eq_some_iff.1 read
  exact ⟨l, denotes⟩

theorem stopsAt (h : Intact disk path here m)
    (stopped : Interrupted disk after path here cacheKey output done failing) :
    ∃ previous, (previous = some m ∨ previous = none) ∧
      StopsAt previous cacheKey output done failing := by
  obtain ⟨previous, later, known, parts⟩ := stopped.stops
  rw [h.found] at known
  exact ⟨previous, known, stopsAt_of_fileSteps parts⟩

theorem fate (h : Intact disk path here m)
    (stopped : Interrupted disk after path here cacheKey output done failing) (l : Location) :
    Fate disk here cacheKey output done failing l (after.node? l) := by
  obtain ⟨previous, -, stops⟩ := h.stopsAt stopped
  exact stops.fate ((stopped.left h.directory).2 l)

theorem mem_units_of_removed (h : Intact disk path here m)
    (stopped : Interrupted disk after path here cacheKey output done failing) {name : String}
    (removed : .remove name ∈ done) : name ∈ m.units := by
  obtain ⟨previous, known, stops⟩ := h.stopsAt stopped
  obtain ⟨written, gone, rfl, -, listed⟩ := stops.done_eq
  have mem : name ∈ gone := by simpa using removed
  rcases known with rfl | rfl
  · exact (List.mem_filter.1 (listed name mem)).1
  · exact absurd (listed name mem) List.not_mem_nil

/-- The earlier manifest is the only one that can be read afterwards. -/
theorem manifest?_after (h : Intact disk path here m)
    (stopped : Interrupted disk after path here cacheKey output done failing)
    (apart : ∀ unit ∈ output.units, ¬disk.SameEntry here unit.name Manifest.fileName) :
    manifest? after here = none ∨ manifest? after here = some m := by
  obtain ⟨l, denotes⟩ := h.exists_denotes_manifest
  have same := (stopped.left h.directory).1
  rcases h.fate stopped l with ⟨-, kept⟩ | ⟨mem, covers, -, -, -⟩ | ⟨-, -, left⟩ |
    ⟨-, -, front, proper, left⟩
  · exact .inr ((manifest?_congr same denotes kept).trans h.found)
  · exact absurd ⟨l, covers, denotes⟩ (apart _ mem)
  · have gone : after.fileUnder? here Manifest.fileName = none :=
      Disk.fileUnder?_eq_none fun l' own => by
        rwa [(same.denotes_iff.1 own).unique denotes]
    refine .inl ?_
    rw [manifest?_eq_bind, gone]
    rfl
  · exact .inl (manifest?_of_cutOff (same.denotes_iff.2 denotes) left front proper)

/-- Up to the last unit nothing has been removed, and the manifest is as it was. -/
theorem manifest?_of_unit (h : Intact disk path here m) {unit : SourceUnit}
    (stopped : Interrupted disk after path here cacheKey output done (.put unit))
    (apart : ∀ unit ∈ output.units, ¬disk.SameEntry here unit.name Manifest.fileName)
    (mem : unit ∈ output.units) :
    manifest? after here = some m ∧ ∀ name, .remove name ∉ done := by
  obtain ⟨l, denotes⟩ := h.exists_denotes_manifest
  have other : unit.name ≠ Manifest.fileName := by
    intro same
    exact apart unit mem ⟨l, same ▸ denotes, denotes⟩
  have none : ∀ name, .remove name ∉ done := by
    obtain ⟨previous, -, stops⟩ := h.stopsAt stopped
    cases stops with
    | atUnit => simp
    | atManifest => exact absurd rfl other
  refine ⟨?_, none⟩
  rcases h.fate stopped l with
    ⟨-, kept⟩ | ⟨mem, covers, -, -, -⟩ | ⟨removed, -, -⟩ | ⟨last, -, -, -, -⟩
  · exact (manifest?_congr (stopped.left h.directory).1 denotes kept).trans h.found
  · exact absurd ⟨l, covers, denotes⟩ (apart _ mem)
  · exact absurd removed (none _)
  · cases last
    exact absurd rfl other

/-- A listed unit is still there unless something was removed. -/
theorem isFile_after (h : Intact disk path here m)
    (stopped : Interrupted disk after path here cacheKey output done failing)
    (none : ∀ name, .remove name ∉ done) {name : String} (listed : name ∈ m.units) :
    after.isFile here name = true := by
  obtain ⟨openable, l, bytes, denotes, file⟩ := exists_denotes_of_isFile (h.present name listed)
  have left : ∃ bytes', after.node? l = some (.file bytes') := by
    rcases h.fate stopped l with ⟨-, kept⟩ | ⟨-, -, -, -, left⟩ | ⟨removed, -, -⟩ |
      ⟨-, -, -, -, left⟩
    · exact ⟨bytes, kept.trans file⟩
    · exact ⟨_, left⟩
    · exact absurd removed (none _)
    · exact ⟨_, left⟩
  obtain ⟨bytes', left⟩ := left
  have denotes' := (stopped.left h.directory).1.denotes_iff.2 denotes
  rw [Disk.isFile_eq, denotes'.fileUnder?_eq openable, Disk.files_eq_some_iff.2 left]
  rfl

/-- Nothing is put where a listed unit was removed, as long as a manifest can be read. -/
theorem not_isFile_after (h : Intact disk path here m)
    (stopped : Interrupted disk after path here cacheKey output done failing)
    (found : manifest? after here = some m) {name : String} (removed : .remove name ∈ done) :
    ¬after.isFile here name = true := by
  intro present
  obtain ⟨-, l, bytes, denotes', file⟩ := exists_denotes_of_isFile present
  have denotes := (stopped.left h.directory).1.denotes_iff.1 denotes'
  rcases h.fate stopped l with ⟨none, -⟩ | ⟨-, -, -, stays, -⟩ | ⟨-, -, left⟩ |
    ⟨-, covers, front, proper, left⟩
  · exact none _ removed denotes
  · exact stays name removed denotes
  · rw [left] at file
    cases file
  · have covers' := (stopped.left h.directory).1.denotes_iff.2 covers
    rw [manifest?_of_cutOff covers' left front proper] at found
    cases found

/-- After a failure the earlier manifest counts as intact just if it can be read and nothing was
removed. -/
theorem intactManifest_after_iff (h : Intact disk path here m)
    (stopped : Interrupted disk after path here cacheKey output done failing)
    (apart : ∀ unit ∈ output.units, ¬disk.SameEntry here unit.name Manifest.fileName)
    {key : String} {m' : Manifest} :
    (intactManifest path key).on after = (.ok (some m'), after) ↔
      m' = m ∧ key = m.cacheKey ∧ manifest? after here = some m ∧
        ∀ name, .remove name ∉ done := by
  rw [intactManifest_eq_some_iff ((stopped.left h.directory).1.keeps.openDirectory h.isOpen)]
  constructor
  · rintro ⟨found, rfl, present⟩
    rcases h.manifest?_after stopped apart with none | some
    · rw [none] at found
      cases found
    · obtain rfl := Option.some.inj (found.symm.trans some)
      refine ⟨rfl, rfl, found, fun name removed => ?_⟩
      exact h.not_isFile_after stopped found removed
        (present name (h.mem_units_of_removed stopped removed))
  · rintro ⟨rfl, rfl, found, none⟩
    exact ⟨found, rfl, fun name listed => h.isFile_after stopped none listed⟩

/-- What can be read of a listed unit that no unit was written over. -/
theorem fileUnder?_after (h : Intact disk path here m)
    (stopped : Interrupted disk after path here cacheKey output done failing)
    (found : manifest? after here = some m) {name : String} (listed : name ∈ m.units)
    (apart : ∀ unit ∈ output.units, ¬disk.SameEntry here unit.name name) :
    after.fileUnder? here name = disk.fileUnder? here name ∨
      after.fileUnder? here name = none ∧
        ∃ gone, .remove gone ∈ done ∧ disk.SameEntry here gone name := by
  obtain ⟨openable, l, bytes, denotes, -⟩ := exists_denotes_of_isFile (h.present name listed)
  have same := (stopped.left h.directory).1
  have denotes' := same.denotes_iff.2 denotes
  rcases h.fate stopped l with ⟨-, kept⟩ | ⟨mem, covers, -, -, -⟩ | ⟨removed, covers, left⟩ |
    ⟨-, covers, front, proper, left⟩
  · refine .inl ?_
    rw [denotes'.fileUnder?_eq openable, denotes.fileUnder?_eq openable, Disk.files, Disk.files,
      List.nil_append, kept]
  · exact absurd ⟨l, covers, denotes⟩ (apart _ mem)
  · refine .inr ⟨Disk.fileUnder?_eq_none fun l' own => ?_, _, removed, l, covers, denotes⟩
    rwa [own.unique denotes']
  · rw [manifest?_of_cutOff (same.denotes_iff.2 covers) left front proper] at found
    cases found

end Intact

/-! ## The theorem -/

/-- **A store that fails leaves the earlier manifest, whatever has become of its units.** A store
that fails of itself is one that was interrupted, and wherever it is interrupted, every entry holds
what the last step on it has left there, or a file that was cut off by the step that failed. Unless
a unit was put over the manifest, no other manifest than the earlier one can be read. It counts as
intact just if it can be read and nothing was removed. So it does if it was a unit that failed,
though the units before that one, and a part of that one, may stand where units are that it lists.
As long as it can be read, a listed unit that no unit was put over is as it was, or was removed. -/
theorem store_failure_leaves {path cacheKey : String} {output : Output} {disk : Disk}
    {here : Location} {m : Manifest} (intact : Intact disk path here m) :
    (∀ e after, (store path cacheKey output).on disk = (.error e, after) →
      ∃ done failing cause, Interrupted disk after path here cacheKey output done failing ∧
        e = .disk (Path.join path failing.name) cause) ∧
    ∀ after done failing, Interrupted disk after path here cacheKey output done failing →
      (∀ l, LeftAt disk here done l (after.node? l) ∨
        CutOff disk here failing l (after.node? l)) ∧
      ((∀ unit ∈ output.units, ¬disk.SameEntry here unit.name Manifest.fileName) →
        (manifest? after here = none ∨ manifest? after here = some m) ∧
        (∀ key m', (intactManifest path key).on after = (.ok (some m'), after) ↔
          m' = m ∧ key = m.cacheKey ∧ manifest? after here = some m ∧
            ∀ name, .remove name ∉ done) ∧
        (∀ unit ∈ output.units, failing = .put unit →
          (intactManifest path m.cacheKey).on after = (.ok (some m), after)) ∧
        (manifest? after here = some m → ∀ name ∈ m.units,
          (∀ unit ∈ output.units, ¬disk.SameEntry here unit.name name) →
          after.fileUnder? here name = disk.fileUnder? here name ∨
            after.fileUnder? here name = none ∧
              ∃ gone, .remove gone ∈ done ∧ disk.SameEntry here gone name)) := by
  refine ⟨fun e after failed => interrupted_of_store intact.isOpen failed, ?_⟩
  intro after done failing stopped
  refine ⟨(stopped.left intact.directory).2, fun apart => ⟨intact.manifest?_after stopped apart,
    fun key m' => intact.intactManifest_after_iff stopped apart, ?unit,
    fun found name listed => intact.fileUnder?_after stopped found listed⟩⟩
  case unit =>
    rintro unit mem rfl
    exact (intact.intactManifest_after_iff stopped apart).2
      ⟨rfl, rfl, intact.manifest?_of_unit stopped apart mem⟩

theorem intact_storedDisk {cacheKey : String} {output : Output} {others : List (Location × Node)}
    (present : ∀ unit ∈ output.units,
      (storedDisk cacheKey output others).isFile ["work", "out"] unit.name) :
    Intact (storedDisk cacheKey output others) "out" ["work", "out"]
      (.ofOutput cacheKey output) where
  isOpen := rfl
  found := manifest?_storedDisk cacheKey output others
  present := List.forall_mem_map.2 present

/-- The second unit cannot be written, for there is no directory for it; by then the first is
written over, and the manifest of the earlier output counts as intact all the same. Where it is the
new manifest that must not be written, the earlier one still lists the unit that has just been
removed. -/
theorem store_failure_leaves_earlier_manifest :
    let earlier : Output := ⟨[⟨"A.g.cs", "old"⟩], []⟩
    let both : Output := ⟨[⟨"A.g.cs", "new"⟩, ⟨"missing/B.g.cs", "b"⟩], []⟩
    let other : Output := ⟨[⟨"B.g.cs", "b"⟩], []⟩
    let here := ["work", "out"]
    let disk := storedDisk "one" earlier []
    Intact disk "out" here (.ofOutput "one" earlier) ∧
      (∃ after,
        (store "out" "two" both).on disk = (.error (.disk "out/missing/B.g.cs" .notFound), after) ∧
        (intactManifest "out" "one").on after = (.ok (some (.ofOutput "one" earlier)), after) ∧
        disk.fileUnder? here "A.g.cs" = some (bytesOf "old") ∧
        after.fileUnder? here "A.g.cs" = some (bytesOf "new")) ∧
      ∃ after,
        Interrupted disk after "out" here "two" other [.put ⟨"B.g.cs", "b"⟩, .remove "A.g.cs"]
          (.put ⟨Manifest.fileName, (Manifest.ofOutput "two" other).pretty⟩) ∧
        manifest? after here = some (.ofOutput "one" earlier) ∧
        after.fileUnder? here "A.g.cs" = none ∧
        ∀ key m, (intactManifest "out" key).on after ≠ (.ok (some m), after) := by
  intro earlier both other here disk
  have intact : Intact disk "out" here (.ofOutput "one" earlier) :=
    intact_storedDisk (List.forall_mem_singleton.2 rfl)
  refine ⟨intact, ?unit, ?manifest⟩
  case unit =>
    let after := disk.set ["work", "out", "A.g.cs"] (.file (bytesOf "new"))
    have stopped : Interrupted disk after "out" here "two" both [.put ⟨"A.g.cs", "new"⟩]
        (.put ⟨"missing/B.g.cs", "b"⟩) :=
      ⟨⟨some (.ofOutput "one" earlier), _, .inl intact.found.symm, rfl⟩, after, rfl, .refused⟩
    have apart : ∀ unit ∈ both.units, ¬disk.SameEntry here unit.name Manifest.fileName := by
      rw [List.forall_mem_cons, List.forall_mem_singleton]
      exact ⟨fun shared => absurd shared.getLast?_names (by decide),
        fun shared => absurd shared.getLast?_names (by decide)⟩
    obtain ⟨-, -, hit, -⟩ := ((store_failure_leaves intact).2 after _ _ stopped).2 apart
    exact ⟨after, rfl, hit _ (by simp [both]) rfl, rfl, rfl⟩
  case manifest =>
    let after := (disk.set ["work", "out", "B.g.cs"] (.file (bytesOf "b"))).erase
      ["work", "out", "A.g.cs"]
    have stopped : Interrupted disk after "out" here "two" other
        [.put ⟨"B.g.cs", "b"⟩, .remove "A.g.cs"]
        (.put ⟨Manifest.fileName, (Manifest.ofOutput "two" other).pretty⟩) :=
      ⟨⟨some (.ofOutput "one" earlier), [], .inl intact.found.symm, rfl⟩, after, rfl, .refused⟩
    have apart : ∀ unit ∈ other.units, ¬disk.SameEntry here unit.name Manifest.fileName := by
      rw [List.forall_mem_singleton]
      exact fun shared => absurd shared.getLast?_names (by decide)
    obtain ⟨-, key, -, -⟩ := ((store_failure_leaves intact).2 after _ _ stopped).2 apart
    refine ⟨after, stopped, ?_, rfl, fun k m hit => ?_⟩
    · apply manifest?_eq_some
      rw [validName_manifest.fileUnder?_eq rfl]
      rfl
    · exact ((key k m).1 hit).2.2.2 "A.g.cs" (by simp)

/-- A unit that is listed need not be as it was. -/
theorem not_store_failure_keeps_units :
    ¬∀ (disk after : Disk) (path cacheKey : String) (here : Location) (m : Manifest)
      (output : Output) (e : RunError), Intact disk path here m →
      (store path cacheKey output).on disk = (.error e, after) →
      ∀ m', manifest? after here = some m' → ∀ name ∈ m'.units,
        after.isFile here name ∧ after.fileUnder? here name = disk.fileUnder? here name := by
  intro keeps
  let earlier : Output := ⟨[⟨"A.g.cs", "old"⟩], []⟩
  let later : Output := ⟨[⟨"A.g.cs", "new"⟩, ⟨"missing/B.g.cs", "b"⟩], []⟩
  let disk := storedDisk "one" earlier []
  let after := disk.set ["work", "out", "A.g.cs"] (.file (bytesOf "new"))
  have intact : Intact disk "out" ["work", "out"] (.ofOutput "one" earlier) :=
    intact_storedDisk (List.forall_mem_singleton.2 rfl)
  have failed : (store "out" "two" later).on disk =
      (.error (.disk "out/missing/B.g.cs" .notFound), after) := rfl
  have found : manifest? after ["work", "out"] = some (.ofOutput "one" earlier) := by
    apply manifest?_eq_some
    rw [validName_manifest.fileUnder?_eq rfl]
    rfl
  obtain ⟨-, same⟩ := keeps disk after "out" "two" _ _ later _ intact failed _ found "A.g.cs"
    (by simp [Manifest.ofOutput, earlier])
  have old : disk.fileUnder? ["work", "out"] "A.g.cs" = some (bytesOf "old") := rfl
  have new : after.fileUnder? ["work", "out"] "A.g.cs" = some (bytesOf "new") := rfl
  rw [old, new, Option.some_inj] at same
  exact absurd (toUTF8_toList_inj.1 same) (by decide)

end HierarchyAccessors.OutputDirectory
