import HierarchyAccessors.Proofs.SingleRun

/-!
# Runs one after another

A directory that only runs write to forgets its past. Whatever runs came before, with whatever
snapshots and flags, after a run that writes or uses output again the directory holds the files that
a single run into an absent directory would leave (`run_forgets_history`).

What carries the proof over a history of runs is `Inv`: the directory holds no files, or exactly
those of the output of one snapshot that has been read. A manifest that is found there is then the
manifest of that output, and its key tells whether the snapshot is the same.
-/

namespace HierarchyAccessors

open Disk (ValidName)
open OutputDirectory RunM

/-! ## Histories -/

/-- What was changed lies outside of the directory, and not on the way to it. -/
structure Untouched (outDir : String) (disk after : Disk) : Prop where
  workingDirectory : after.workingDirectory = disk.workingDirectory
  opens : after.openDirectory none outDir = disk.openDirectory none outDir
  node : ∀ names, after.node? (disk.place outDir ++ names) = disk.node? (disk.place outDir ++ names)

namespace Untouched

variable {outDir : String} {disk after : Disk}

theorem place (h : Untouched outDir disk after) : after.place outDir = disk.place outDir := by
  rw [Disk.place, Disk.place, h.workingDirectory]

theorem files (h : Untouched outDir disk after) :
    after.files (disk.place outDir) = disk.files (disk.place outDir) := by
  funext names
  rw [Disk.files, Disk.files, h.node]

end Untouched

/-- If the run gets as far as writing, it writes everything. -/
def Completes (config : Config) (disk : Disk) : Prop :=
  ∀ cacheKey output, config.plan disk = .ok (.store cacheKey output) →
    ∃ m after, (store config.outDir cacheKey output).on disk = (.ok m, after)

/-- The disks after runs that share an output directory, in which nothing else changes, each with
the snapshots that have been read on the way, latest first. Any run may fail, but not halfway
through writing. -/
inductive History (outDir : String) (start : Disk) : List Snapshot → Disk → Prop
  | start : History outDir start [] start
  | elsewhere {read : List Snapshot} {disk after : Disk} : History outDir start read disk →
    Untouched outDir disk after → History outDir start read after
  | call {read : List Snapshot} {disk after : Disk} {config : Config}
    {result : Except RunError Outcome} : History outDir start read disk →
    config.outDir = outDir → Completes config disk → (run config).on disk = (result, after) →
    History outDir start (config.snapshots disk ++ read) after

/-! ## The invariant -/

/-- The directory can be opened or is missing, and holds no files or those of the output of one of
the snapshots and no others. -/
structure History.Inv (outDir : String) (read : List Snapshot) (disk : Disk) : Prop where
  opens : disk.openDirectory none outDir = .error .notFound ∨
    disk.openDirectory none outDir = .ok (disk.place outDir)
  files : disk.files (disk.place outDir) = (fun _ => none) ∨
    ∃ s ∈ read, (∀ unit ∈ s.output.units, ValidName unit.name) ∧
      disk.files (disk.place outDir) = s.output.files s.cacheKey

namespace History.Inv

variable {outDir : String} {read : List Snapshot} {disk : Disk}

theorem mono {more : List Snapshot} (inv : History.Inv outDir read disk)
    (h : ∀ s ∈ read, s ∈ more) : History.Inv outDir more disk :=
  ⟨inv.opens, inv.files.imp_right fun ⟨s, hs, files⟩ => ⟨s, h s hs, files⟩⟩

theorem holds (inv : History.Inv outDir read disk) :
    ∃ previous, Holds (disk.files (disk.place outDir)) previous := by
  rcases inv.files with empty | ⟨s, -, valid, files⟩
  · exact ⟨_, .nothing empty⟩
  · exact ⟨_, .output (wellNamed_of_valid valid) files⟩

/-- A manifest that is found under the key of a snapshot is that of the snapshot's own output,
whose files the directory holds. -/
theorem manifest_of_key (inv : History.Inv outDir read disk) {s : Snapshot} {m : Manifest}
    (distinct : Collisionless ((s :: read).flatMap Snapshot.digested))
    (directory : disk.node? (disk.place outDir) = some .directory)
    (found : manifest? disk (disk.place outDir) = some m) (key : m.cacheKey = s.cacheKey) :
    m = .ofOutput s.cacheKey s.output ∧ (∀ unit ∈ s.output.units, ValidName unit.name) ∧
      disk.files (disk.place outDir) = s.output.files s.cacheKey := by
  rcases inv.files with empty | ⟨t, ht, valid, files⟩
  · rw [manifest?_eq_none directory empty] at found
    cases found
  · rw [manifest?_of_files directory files] at found
    cases found
    have same : t = s := Snapshot.eq_of_cacheKey_eq distinct
      (fun a ha => List.mem_flatMap.2 ⟨t, List.mem_cons_of_mem _ ht, ha⟩)
      (fun a ha => List.mem_flatMap.2 ⟨s, List.mem_cons_self, ha⟩) key
    subst same
    exact ⟨rfl, valid, files⟩

/-- Output that can be used again is that of the snapshot. -/
theorem reusable (inv : History.Inv outDir read disk) {config : Config}
    (out : config.outDir = outDir) {s : Snapshot}
    (distinct : Collisionless ((s :: read).flatMap Snapshot.digested)) :
    ∃ reusable, (config.reusable s.cacheKey).found disk = .ok reusable ∧
      ∀ m, reusable = some m → m = .ofOutput s.cacheKey s.output ∧
        (∀ unit ∈ s.output.units, ValidName unit.name) ∧
        disk.files (disk.place outDir) = s.output.files s.cacheKey := by
  unfold Config.reusable
  split
  · rw [out, intactManifest_found]
    rcases inv.opens with missing | opened
    · rw [missing]
      exact ⟨none, rfl, nofun⟩
    · rw [opened]
      refine ⟨_, rfl, fun m hm => ?_⟩
      obtain ⟨found, intact⟩ := Option.filter_eq_some_iff.1 hm
      have key := (Bool.and_eq_true_iff.1 intact).1
      exact inv.manifest_of_key distinct (Disk.openDirectory_eq_ok_iff.1 opened).2 found
        (eq_of_beq key)
  · exact ⟨none, rfl, nofun⟩

/-- Where other files are found, nothing can be used again. -/
theorem reusable_eq_none (inv : History.Inv outDir read disk) {config : Config}
    (out : config.outDir = outDir) {s : Snapshot}
    (distinct : Collisionless ((s :: read).flatMap Snapshot.digested))
    (other : disk.files (disk.place outDir) ≠ s.output.files s.cacheKey) :
    (config.reusable s.cacheKey).found disk = .ok none := by
  obtain ⟨_ | m, found, same⟩ := inv.reusable out distinct
  · exact found
  · exact absurd (same m rfl).2.2 other

end History.Inv

namespace History.Inv

variable {outDir : String} {read : List Snapshot} {disk after : Disk}

theorem start (absent : Absent outDir disk) : History.Inv outDir [] disk :=
  ⟨.inl absent.notFound, .inl absent.files⟩

theorem elsewhere (inv : History.Inv outDir read disk) (h : Untouched outDir disk after) :
    History.Inv outDir read after := by
  refine ⟨?_, ?_⟩
  · rw [h.opens, h.place]
    exact inv.opens
  · rw [h.place, h.files]
    exact inv.files

/-- After something has been stored the directory holds its files. -/
theorem store (inv : History.Inv outDir read disk) {s : Snapshot} {m : Manifest}
    (slashFree : s.SlashFree)
    (h : (OutputDirectory.store outDir s.cacheKey s.output).on disk = (.ok m, after)) :
    History.Inv outDir (s :: read) after := by
  obtain ⟨previous, holds⟩ := inv.holds
  obtain ⟨-, keeps, opened, files, valid⟩ := store_spec (wellNamed_output slashFree) holds h
  refine ⟨.inr ?_, .inr ⟨s, List.mem_cons_self, valid, ?_⟩⟩
  · rw [keeps.place]
    exact opened
  · rw [keeps.place]
    exact files

/-- One run, whatever comes of it. -/
theorem step (inv : History.Inv outDir read disk) {config : Config}
    {result : Except RunError Outcome} (out : config.outDir = outDir)
    (completes : Completes config disk)
    (slashFree : ∀ s ∈ config.snapshots disk, s.SlashFree)
    (h : (run config).on disk = (result, after)) :
    History.Inv outDir (config.snapshots disk ++ read) after := by
  have unchanged : History.Inv outDir (config.snapshots disk ++ read) disk :=
    inv.mono fun _ => List.mem_append_right _
  rw [run_on] at h
  split at h
  · cases h
    exact unchanged
  · next planned plan =>
    obtain ⟨s, found, ⟨m, -, rfl⟩ | rfl | rfl⟩ := Config.plan_cases plan
    · cases h
      exact unchanged
    · cases h
      exact unchanged
    · obtain ⟨m, later, stored⟩ := completes _ _ plan
      have here : config.snapshots disk = [s] := Config.snapshots_eq_singleton_iff.2 found
      rw [here] at slashFree ⊢
      rw [Plan.carryOut, on_bind, stored] at h
      cases h
      rw [out] at stored
      exact inv.store (slashFree s List.mem_cons_self) stored

end History.Inv

/-- By induction on the history. -/
theorem inv_of_history {outDir : String} {initial disk : Disk} {read : List Snapshot}
    (absent : Absent outDir initial) (history : History outDir initial read disk)
    (slashFree : ∀ s ∈ read, s.SlashFree) : History.Inv outDir read disk := by
  induction history with
  | start => exact .start absent
  | elsewhere _ untouched ih => exact (ih slashFree).elsewhere untouched
  | call _ out completes ran ih =>
    obtain ⟨latest, earlier⟩ := List.forall_mem_append.1 slashFree
    exact (ih earlier).step out completes latest ran

/-! ## The result -/

/-- What a run that succeeds without planning leaves, and what it reports, by the invariant. -/
theorem History.Inv.files_of_run {outDir : String} {disk after : Disk} {read : List Snapshot}
    {m : Manifest} (inv : History.Inv outDir read disk) {config : Config}
    (out : config.outDir = outDir) (slashFree : ∀ s ∈ config.snapshots disk, s.SlashFree)
    (distinct : Collisionless ((config.snapshots disk ++ read).flatMap Snapshot.digested))
    (h : (run config).on disk = (.ok (.written m), after) ∨
      (run config).on disk = (.ok (.cached m), after)) :
    ∃ s, config.reading.found disk = .ok s ∧ m = .ofOutput s.cacheKey s.output ∧
      (∀ unit ∈ s.output.units, ValidName unit.name) ∧
      after.files (after.place outDir) = s.output.files s.cacheKey := by
  subst out
  rcases h with h | h
  · obtain ⟨s, found, stored⟩ := run_eq_written h
    rw [Config.snapshots_eq_singleton_iff.2 found] at slashFree
    obtain ⟨previous, holds⟩ := inv.holds
    obtain ⟨manifest, keeps, -, files, valid⟩ :=
      store_spec (wellNamed_output (slashFree s List.mem_cons_self)) holds stored
    refine ⟨s, found, manifest, valid, ?_⟩
    rw [keeps.place]
    exact files
  · obtain ⟨s, found, again, rfl⟩ := run_eq_cached h
    rw [Config.snapshots_eq_singleton_iff.2 found] at distinct
    obtain ⟨reusable, found', same⟩ := inv.reusable rfl distinct
    rw [found'] at again
    obtain ⟨manifest, valid, files⟩ := same m (Except.ok.inj again)
    exact ⟨s, found, manifest, valid, files⟩

/-- Whether a run fails for its diagnostics does not depend on what can be used again: a manifest
that is found lists the diagnostics that the pass would record. -/
theorem History.Inv.strict_iff {outDir : String} {disk : Disk} {read : List Snapshot}
    (inv : History.Inv outDir read disk) {config : Config} (out : config.outDir = outDir)
    (distinct : Collisionless ((config.snapshots disk ++ read).flatMap Snapshot.digested))
    (count : Nat) :
    { config with cache := true, strict := true }.plan disk = .error (.strict count) ↔
      { config with cache := false, strict := true }.plan disk = .error (.strict count) := by
  let cached : Config := { config with cache := true, strict := true }
  let uncached : Config := { config with cache := false, strict := true }
  show cached.plan disk = _ ↔ uncached.plan disk = _
  cases found : config.reading.found disk with
  | error e =>
    have fails (c : Config) (same : c.reading = config.reading) : c.plan disk = .error e := by
      rw [Config.plan, same, found]
      rfl
    rw [fails cached rfl, fails uncached rfl]
  | ok s =>
    rw [Config.snapshots_eq_singleton_iff.2 found] at distinct
    have plans (c : Config) (same : c.reading = config.reading) :
        c.plan disk = (c.reusable s.cacheKey).found disk >>= c.planFor s :=
      Config.plan_eq (by rw [same, found])
    have afresh : uncached.plan disk = uncached.planFor s none := by
      have nothing : (uncached.reusable s.cacheKey).found disk = .ok none := by
        rw [Config.reusable, if_neg (fun both => Bool.false_ne_true both.1)]
        rfl
      rw [plans uncached rfl, nothing]
      rfl
    have out' : cached.outDir = outDir := out
    obtain ⟨reusable, found', same⟩ := inv.reusable out' distinct
    have again : cached.plan disk = cached.planFor s reusable := by
      rw [plans cached rfl, found']
      rfl
    rw [afresh, again]
    cases reusable with
    | none => exact Iff.rfl
    | some m =>
      obtain ⟨rfl, -, -⟩ := same m rfl
      have length : (Manifest.ofOutput s.cacheKey s.output).diagnostics.length =
          s.output.diagnostics.length := List.length_map _
      have check : cached.checkStrict s.output.diagnostics.length =
          uncached.checkStrict s.output.diagnostics.length := rfl
      simp only [Config.planFor, length, check]
      cases uncached.checkStrict s.output.diagnostics.length with
      | error e => exact Iff.rfl
      | ok _ =>
        simp only [bind, Except.bind]
        split <;> simp [pure, Except.pure]

/-- **A directory that only runs write to forgets its past.** Whatever runs have shared it since it
was absent, a run that writes or uses output again leaves the files and gives the manifest of a
single run of its snapshot into an absent directory, and there is only one such manifest and one
such set of files. A strict run fails for its diagnostics with a cache exactly when it does without
one, and counts as many. -/
theorem run_forgets_history {outDir : String} {initial disk : Disk} {read : List Snapshot}
    (absent : Absent outDir initial) (history : History outDir initial read disk)
    {config : Config} (out : config.outDir = outDir)
    (slashFree : ∀ s ∈ config.snapshots disk ++ read, s.SlashFree)
    (distinct : Collisionless ((config.snapshots disk ++ read).flatMap Snapshot.digested)) :
    (∀ m after, (run config).on disk = (.ok (.written m), after) ∨
        (run config).on disk = (.ok (.cached m), after) →
      ∃ s, config.snapshots disk = [s] ∧ FreshRun s m (after.files (after.place outDir)) ∧
        ∀ m' files, FreshRun s m' files → m' = m ∧ files = after.files (after.place outDir)) ∧
    ∀ count,
      ((run { config with cache := true, strict := true }).on disk).1 = .error (.strict count) ↔
        ((run { config with cache := false, strict := true }).on disk).1 =
          .error (.strict count) := by
  obtain ⟨latest, earlier⟩ := List.forall_mem_append.1 slashFree
  have inv := inv_of_history absent history earlier
  refine ⟨fun m after h => ?_, fun count => ?_⟩
  · obtain ⟨s, found, rfl, valid, files⟩ := inv.files_of_run out latest distinct h
    have here := Config.snapshots_eq_singleton_iff.2 found
    obtain ⟨text, read⟩ := exists_text_of_reading found
    rw [files]
    refine ⟨s, here, freshRun_of_read read valid, fun m' files' fresh => ?_⟩
    exact fresh.eq (latest s (here ▸ List.mem_cons_self))
  · rw [run_strict_iff, run_strict_iff]
    exact inv.strict_iff out distinct count

/-! ## An output after that of another snapshot -/

/-- A type without fields. -/
def Snapshot.bareType : Snapshot := ⟨[⟨"Yard.cs", [.typeDecl "Yard" []]⟩], .empty⟩

namespace Snapshot

theorem read_bareType : read bareType.canonical = .ok bareType :=
  (read_eq_ok_iff (Json.Value.tokens_compact _)).2 (by decide)

theorem names_boundField :
    boundField.output.units.map (·.name) = [Schema.unit.name, "Hall.g.cs"] := by
  decide +kernel

theorem names_bareType : bareType.output.units.map (·.name) = [Schema.unit.name] := by
  decide +kernel

theorem validName_boundField : ∀ unit ∈ boundField.output.units, ValidName unit.name := by
  rw [← List.forall_mem_map (P := (ValidName ·)), names_boundField]
  decide

theorem validName_bareType : ∀ unit ∈ bareType.output.units, ValidName unit.name := by
  rw [← List.forall_mem_map (P := (ValidName ·)), names_bareType]
  decide

/-- No two of the texts that are digested for the two snapshots have one digest. -/
theorem collisionless_of_bareType :
    Collisionless ([bareType, boundField].flatMap Snapshot.digested) := by
  have field : boundField.fingerprint =
      "099cc35457f5de4c747b26cee4aa415e37c582f0ce4009dc339354b4eb54cd50" := by
    simp only [fingerprint, byteArray_toList_eq]
    decide +kernel
  have bare : bareType.fingerprint =
      "c54099f98318f26988652b58233b37ee41d449d8e07891e4c055a86ad5d9d736" := by
    simp only [fingerprint, byteArray_toList_eq]
    decide +kernel
  have fieldKey : boundField.cacheKey =
      "5dc2c3443988f8ca9eb810c39504ddddaac515889c9bf4173d51f3bbf4e8225d" := by
    simp only [cacheKey, CacheKey.digest, field, CacheKey.bytes, byteArray_toList_eq]
    decide +kernel
  have bareKey : bareType.cacheKey =
      "8c681c1c3276c514cfd22e32b43e10fc1b5330d5c7a564d8e56f102aebbd2073" := by
    simp only [cacheKey, CacheKey.digest, bare, CacheKey.bytes, byteArray_toList_eq]
    decide +kernel
  apply collisionless_of_nodup
  simp [field, bare, fieldKey, bareKey]

end Snapshot

/-- Another text in the file `in` does not touch `out`. -/
theorem Workplace.replaced {disk : Disk} {text : String} (place : Workplace disk text)
    (isOpen : disk.openDirectory none "out" = .ok ["work", "out"]) (text' : String) :
    let after := disk.set ["work", "in"] (.file (Disk.bytesOf text'))
    Workplace after text' ∧ Untouched "out" disk after := by
  intro after
  have noDirectory : disk.node? ["work", "in"] ≠ some .directory := by simp [place.file]
  have keeps : Disk.Keeps disk after := Disk.keeps_set (by simp) _ (.inr noDirectory)
  have node (l : Location) : after.node? l =
      if l = ["work", "in"] then some (.file (Disk.bytesOf text')) else disk.node? l :=
    Disk.node?_set disk (by simp) _ l
  have here : disk.place "out" = ["work", "out"] := (Disk.openDirectory_eq_place isOpen).symm
  have again := keeps.openDirectory isOpen
  obtain ⟨opened, opening, free⟩ := place.opening
  rw [openOrMake_of_openDirectory isOpen] at opening
  cases opening
  refine ⟨⟨keeps.openDirectory place.isOpen, by simp [node], after,
    openOrMake_of_openDirectory again, fun name => ?_⟩, rfl, again.trans isOpen.symm,
    fun names => ?_⟩
  · rw [node, if_neg (by simp)]
    exact free name
  · rw [node, here, if_neg (by simp)]

/-- A run that succeeds has written everything, if it has written at all. -/
theorem completes_of_run {config : Config} {disk after : Disk} {outcome : Outcome}
    (h : (run config).on disk = (.ok outcome, after)) : Completes config disk := by
  intro cacheKey output plan
  rw [run_on, plan] at h
  obtain ⟨m, later, stored, -⟩ := on_bind_eq_ok_iff.1 h
  exact ⟨m, later, stored⟩

/-- The output of a field is stored where there was none. Then the snapshot is replaced by one
without fields, and the tool runs twice more: the first time it takes the unit of the field away,
the second time it uses the output again. -/
theorem run_forgets_removed_field :
    let config : Config := { snapshot := some "in", outDir := "out", cache := true }
    let start := Disk.holding Snapshot.boundField.canonical
    ∃ first replaced second m m',
      (run config).on start = (.ok (.written m), first) ∧
      (first.files ["work", "out"] ["Hall.g.cs"]).isSome = true ∧
      Untouched "out" first replaced ∧
      History "out" start [Snapshot.boundField] replaced ∧
      (run config).on replaced = (.ok (.written m'), second) ∧
      ¬(second.files ["work", "out"] ["Hall.g.cs"]).isSome = true ∧
      FreshRun Snapshot.bareType m' (second.files (second.place "out")) ∧
      History "out" start [Snapshot.bareType, Snapshot.boundField] second ∧
      (run config).on second = (.ok (.cached m'), second) ∧
      ∀ m'' files, FreshRun Snapshot.bareType m'' files →
        m'' = m' ∧ files = second.files (second.place "out") := by
  intro config start
  have fieldNames := Snapshot.validName_boundField
  have typeNames := Snapshot.validName_bareType
  have slashFree : ∀ s ∈ [Snapshot.bareType, Snapshot.boundField], s.SlashFree := by
    simp only [List.forall_mem_cons]
    exact ⟨fun u hu => (typeNames u hu).noSlash, fun u hu => (fieldNames u hu).noSlash, by simp⟩
  have snapshots {disk : Disk} {s : Snapshot} (place : Workplace disk s.canonical)
      (h : Snapshot.read s.canonical = .ok s) : config.snapshots disk = [s] :=
    Config.snapshots_eq_singleton_iff.2 (reading_in rfl h place.isOpen place.file)
  have forgets {read : List Snapshot} {disk after : Disk} {m : Manifest}
      (place : Workplace disk Snapshot.bareType.canonical) (history : History "out" start read disk)
      (known : read ⊆ [Snapshot.bareType, Snapshot.boundField])
      (ran : (run config).on disk = (.ok (.written m), after) ∨
        (run config).on disk = (.ok (.cached m), after)) :
      FreshRun Snapshot.bareType m (after.files (after.place "out")) ∧
        ∀ m' files, FreshRun Snapshot.bareType m' files →
          m' = m ∧ files = after.files (after.place "out") := by
    have here := snapshots place Snapshot.read_bareType
    have all : config.snapshots disk ++ read ⊆ [Snapshot.bareType, Snapshot.boundField] := by
      simpa [here] using known
    obtain ⟨s, read, fresh⟩ := (run_forgets_history (absent_holding _) history rfl
      (fun s hs => slashFree s (all hs))
      (Snapshot.collisionless_of_bareType.mono all)).1 m after ran
    rw [here] at read
    cases read
    exact fresh
  -- The field is stored, and the snapshot replaced.
  obtain ⟨first, ran, place, isOpen, files⟩ :=
    run_holding Snapshot.read_boundField fieldNames true
  have history := History.call .start rfl (completes_of_run ran) ran
  rw [snapshots (workplace_holding _) Snapshot.read_boundField] at history
  let replaced := first.set ["work", "in"] (.file (Disk.bytesOf Snapshot.bareType.canonical))
  obtain ⟨place', untouched⟩ : Workplace replaced _ ∧ Untouched "out" first replaced :=
    place.replaced isOpen _
  have history' := history.elsewhere untouched
  have here : first.place "out" = ["work", "out"] := (Disk.openDirectory_eq_place isOpen).symm
  have hall : (first.files ["work", "out"] ["Hall.g.cs"]).isSome = true := by
    rw [files, Output.isSome_files_iff, Snapshot.names_boundField]
    simp
  have notHall : ¬(Snapshot.bareType.output.files Snapshot.bareType.cacheKey
      ["Hall.g.cs"]).isSome = true := by
    rw [Output.isSome_files_iff, Snapshot.names_bareType]
    decide
  -- The unit of the field is still there, so nothing can be used again.
  have files' : replaced.files ["work", "out"] = first.files ["work", "out"] :=
    here ▸ untouched.files
  have other : replaced.files (replaced.place "out") ≠
      Snapshot.bareType.output.files Snapshot.bareType.cacheKey := by
    rw [untouched.place, here, files']
    intro same
    exact notHall (same ▸ hall)
  have inv := inv_of_history (absent_holding _) history' fun s hs =>
    slashFree s (List.mem_cons_of_mem _ hs)
  have out : config.outDir = "out" := rfl
  have nothing := inv.reusable_eq_none out Snapshot.collisionless_of_bareType other
  rw [files] at files'
  obtain ⟨second, ran', place'', isOpen', files''⟩ := place'.exists_written
    Snapshot.read_bareType typeNames (.output (wellNamed_of_valid fieldNames) files')
    (by rintro _ ⟨⟩; exact List.forall_mem_map.2 fieldNames) nothing
  have history'' := History.call history' rfl (completes_of_run ran') ran'
  rw [snapshots place' Snapshot.read_bareType] at history''
  have ran'' : (run config).on second = _ :=
    run_reuses (reading_in rfl Snapshot.read_bareType place''.isOpen place''.file) rfl rfl rfl
      isOpen' typeNames files''
  exact ⟨first, replaced, second, _, _, ran, hall, untouched, history', ran', files'' ▸ notHall,
    (forgets place' history' (by simp) (.inl ran')).1, history'', ran'',
    (forgets place'' history'' (by simp) (.inr ran'')).2⟩

end HierarchyAccessors
