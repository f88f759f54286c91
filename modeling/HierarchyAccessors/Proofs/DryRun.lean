import HierarchyAccessors.Proofs.History

/-!
# Dry runs predict

A dry run goes as far as a run that writes, up to the point where that run would begin to write. Up
to there both do the same: they read the snapshot, make a pass over it, and fail if the run is
strict and the pass met diagnostics (`Config.accepted`). Neither looks into the output directory.

**Theorem (`dry_run_predicts`).** What a dry run gives depends on the path of the snapshot, on what
the file there reads as, and on whether the run is strict. It is a plan or an error. If it is a
plan, then the same run without the cache, on the same disk, either writes exactly that or fails
with a disk error while it writes; if it is an error, that run fails with the same error.
-/

namespace HierarchyAccessors

open OutputDirectory RunM

/-! ## Up to the first write -/

/-- What the run is about to write, told by the snapshot that it comes from. -/
def Config.accepted (config : Config) (disk : Disk) : Except RunError Snapshot := do
  let snapshot ← config.reading.found disk
  config.checkStrict snapshot.output.diagnostics.length
  return snapshot

/-- The manifest of the output of the snapshot. -/
def Snapshot.manifest (s : Snapshot) : Manifest :=
  .ofOutput s.cacheKey s.output

/-- The same run for real, and without the cache. -/
def Config.uncachedRun (config : Config) : Config :=
  { config with cache := false, dryRun := false }

theorem Config.accepted_uncachedRun (config : Config) (disk : Disk) :
    config.uncachedRun.accepted disk = config.accepted disk := rfl

/-- A run that uses no earlier output plans for what it has accepted. -/
theorem Config.plan_of_not_cached {config : Config}
    (h : ¬(config.cache = true ∧ ¬config.dryRun = true)) (disk : Disk) :
    config.plan disk = (config.accepted disk).map fun s =>
      if config.dryRun then .settled (.planned s.manifest) else .store s.cacheKey s.output := by
  have reusable (cacheKey : String) : (config.reusable cacheKey).found disk = .ok none := by
    rw [Config.reusable, if_neg h]
    rfl
  rw [Config.plan, Config.accepted]
  cases config.reading.found disk with
  | error e => rfl
  | ok s =>
    simp only [bind, Except.bind, reusable, Config.planFor]
    cases config.checkStrict s.output.diagnostics.length with
    | error e => rfl
    | ok _ => cases config.dryRun <;> rfl

/-- A dry run reports what it has accepted, and leaves the disk as it is. -/
theorem run_of_dryRun {config : Config} (dry : config.dryRun = true) (disk : Disk) :
    (run config).on disk = ((config.accepted disk).map fun s => .planned s.manifest, disk) := by
  rw [run_on, Config.plan_of_not_cached (fun h => h.2 dry), dry]
  cases config.accepted disk <;> rfl

/-- A run for real stores what it has accepted. -/
theorem run_uncachedRun (config : Config) (disk : Disk) :
    (run config.uncachedRun).on disk =
      match config.accepted disk with
      | .error e => (.error e, disk)
      | .ok s => (store config.outDir s.cacheKey s.output >>= fun m =>
          pure (Outcome.written m)).on disk := by
  have uncached : ¬(config.uncachedRun.cache = true ∧ ¬config.uncachedRun.dryRun = true) := by
    simp [Config.uncachedRun]
  rw [run_on, Config.plan_of_not_cached uncached, Config.accepted_uncachedRun]
  cases config.accepted disk <;> rfl

/-! ## What is read -/

/-- A snapshot is read from the text of its file and from nothing else. -/
theorem readSnapshot_found_congr {path : String} {disk disk' : Disk}
    (same : (readFileText path).found disk = (readFileText path).found disk') :
    (readSnapshot path).found disk = (readSnapshot path).found disk' := by
  rw [found, found, readSnapshot, on_bind, on_bind, (looks_readFileText path).on_eq,
    (looks_readFileText path).on_eq, same]
  cases (readFileText path).found disk' with
  | error e => rfl
  | ok text =>
    dsimp only
    cases Snapshot.read text <;> rfl

theorem Config.accepted_congr {config config' : Config} {disk disk' : Disk}
    (snapshot : config.snapshot = config'.snapshot) (strict : config.strict = config'.strict)
    (file : ∀ path ∈ config.snapshot,
      (readFileText path).found disk = (readFileText path).found disk') :
    config.accepted disk = config'.accepted disk' := by
  have reading : config.reading.found disk = config'.reading.found disk' := by
    rw [found, found, Config.reading, Config.reading, on_bind, on_bind, on_lift, on_lift,
      Config.requiredSnapshot, Config.requiredSnapshot, ← snapshot]
    cases path : config.snapshot with
    | none => rfl
    | some name => exact readSnapshot_found_congr (file name path)
  have check (count : Nat) : config.checkStrict count = config'.checkStrict count := by
    rw [Config.checkStrict, Config.checkStrict, strict]
  rw [Config.accepted, Config.accepted, reading]
  simp only [check]

theorem Config.reading_of_accepted {config : Config} {disk : Disk} {s : Snapshot}
    (h : config.accepted disk = .ok s) : config.reading.found disk = .ok s := by
  obtain ⟨t, read, h⟩ := Json.bind_eq_ok_iff.1 h
  obtain ⟨-, -, h⟩ := Json.bind_eq_ok_iff.1 h
  cases h
  exact read

/-! ## The prediction -/

/-- **A dry run predicts the run that writes.** Its result depends on the path of the snapshot, on
the text of the file there and on strictness alone. A planned manifest is what the run without cache
writes on the same disk, unless a disk operation of the writing fails; an error is the error of that
run. -/
theorem dry_run_predicts :
    (∀ (config config' : Config) (disk disk' : Disk),
      config.dryRun = true → config'.dryRun = true →
      config.snapshot = config'.snapshot → config.strict = config'.strict →
      (∀ path ∈ config.snapshot,
        (readFileText path).found disk = (readFileText path).found disk') →
      (run config).found disk = (run config').found disk') ∧
    ∀ (config : Config) (disk : Disk), config.dryRun = true →
      let real : Config := { config with cache := false, dryRun := false }
      (∃ m, (run config).found disk = .ok (.planned m) ∧
        ((∃ after, (run real).on disk = (.ok (.written m), after)) ∨
          ∃ s path cause after, config.reading.found disk = .ok s ∧
            (store config.outDir s.cacheKey s.output).on disk = (.error (.disk path cause), after) ∧
            (run real).on disk = (.error (.disk path cause), after))) ∨
      ∃ e, (run config).found disk = .error e ∧ (run real).on disk = (.error e, disk) := by
  constructor
  · intro config config' disk disk' dry dry' snapshot strict file
    rw [found, found, run_of_dryRun dry, run_of_dryRun dry',
      Config.accepted_congr snapshot strict file]
  · intro config disk dry real
    have ran : (run real).on disk = _ := run_uncachedRun config disk
    rw [found, run_of_dryRun dry, ran]
    cases accepted : config.accepted disk with
    | error e => exact .inr ⟨e, rfl, rfl⟩
    | ok s =>
      have read : config.reading.found disk = .ok s := Config.reading_of_accepted accepted
      refine .inl ⟨s.manifest, rfl, ?_⟩
      dsimp only
      cases stored : (store config.outDir s.cacheKey s.output).on disk with
      | mk result after =>
        cases result with
        | ok m =>
          obtain ⟨rfl, -⟩ := store_eq_ok stored
          exact .inl ⟨after, on_bind_eq_ok_iff.2 ⟨_, after, stored, rfl⟩⟩
        | error e =>
          obtain ⟨path, cause, rfl⟩ := failsOnDisk_store _ _ _ disk e (congrArg Prod.fst stored)
          exact .inr ⟨s, path, cause, after, read, stored, on_bind_eq_error_iff.2 (.inl stored)⟩

/-- A dry run over a field with a cache, where there is no output directory, and one without a
cache into another directory, on a disk that holds a file under the name of the first. The unit of
the field is planned, and then written. -/
theorem dry_run_predicts_field :
    let s := Snapshot.boundField
    let config : Config := { snapshot := some "in", outDir := "out", cache := true, dryRun := true }
    let config' : Config := { snapshot := some "in", outDir := "elsewhere", dryRun := true }
    let disk := Disk.holding s.canonical
    let disk' := disk.set ["work", "out"] (.file [])
    (run config).found disk = (run config').found disk' ∧
      "Hall.g.cs" ∈ s.manifest.units ∧
      (run config).found disk = .ok (.planned s.manifest) ∧
      ∃ after, (run { config with cache := false, dryRun := false }).on disk =
        (.ok (.written s.manifest), after) := by
  intro s config config' disk disk'
  obtain ⟨same, predicts⟩ := dry_run_predicts
  have text : (readFileText "in").found disk = (readFileText "in").found disk' := by
    rw [found, found, readFileText_in rfl rfl, readFileText_in rfl rfl]
  have unit : "Hall.g.cs" ∈ s.manifest.units := by
    show _ ∈ s.output.units.map (·.name)
    rw [Snapshot.names_boundField]
    simp
  refine ⟨same config config' disk disk' rfl rfl rfl rfl ?_, unit, ?_⟩
  · rintro path ⟨⟩
    exact text
  · obtain ⟨after, ran, -⟩ :=
      run_holding Snapshot.read_boundField Snapshot.validName_boundField false
    have real : (run { config with cache := false, dryRun := false }).on disk =
      (.ok (.written s.manifest), after) := ran
    rcases predicts config disk rfl with
      ⟨m, planned, ⟨later, written⟩ | ⟨_, _, _, _, -, -, failed⟩⟩ | ⟨e, -, failed⟩
    · rw [real] at written
      cases written
      exact ⟨planned, after, real⟩
    · rw [real] at failed
      cases failed
    · rw [real] at failed
      cases failed

end HierarchyAccessors
