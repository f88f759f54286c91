import HierarchyAccessors.Proofs.Storing

/-!
# What the outcome of a run says

The outcome of a run tells how far it got: what is reported as written has just been stored
(`run_eq_written`), what is used again was found on a disk that stays as it is (`run_eq_cached`),
and a strict run that fails for its diagnostics has written nothing (`run_strict_iff`).
-/

namespace HierarchyAccessors

open OutputDirectory RunM

/-! ## What a run reads and finds -/

namespace Config

/-- The snapshot that a run reads, if it reads one. -/
def snapshots (config : Config) (disk : Disk) : List Snapshot :=
  (config.reading.found disk).toOption.toList

theorem snapshots_eq_singleton_iff {config : Config} {disk : Disk} {s : Snapshot} :
    config.snapshots disk = [s] ↔ config.reading.found disk = .ok s := by
  unfold snapshots
  cases config.reading.found disk <;> simp [Except.toOption]

theorem plan_eq {config : Config} {disk : Disk} {s : Snapshot}
    (read : config.reading.found disk = .ok s) :
    config.plan disk = (config.reusable s.cacheKey).found disk >>= config.planFor s := by
  rw [plan, read]
  rfl

/-- A plan is made for the snapshot that was read. -/
theorem plan_cases {config : Config} {disk : Disk} {planned : Plan}
    (h : config.plan disk = .ok planned) :
    ∃ s, config.reading.found disk = .ok s ∧
      ((∃ m, (config.reusable s.cacheKey).found disk = .ok (some m) ∧
          planned = .settled (.cached m)) ∨
        planned = .settled (.planned (.ofOutput s.cacheKey s.output)) ∨
        planned = .store s.cacheKey s.output) := by
  obtain ⟨s, read, h⟩ := Json.bind_eq_ok_iff.1 h
  obtain ⟨reusable, found, h⟩ := Json.bind_eq_ok_iff.1 h
  refine ⟨s, read, ?_⟩
  cases reusable with
  | some m =>
    obtain ⟨-, -, h⟩ := Json.bind_eq_ok_iff.1 h
    cases h
    exact .inl ⟨m, found, rfl⟩
  | none =>
    obtain ⟨-, -, h⟩ := Json.bind_eq_ok_iff.1 h
    split at h
    · cases h
      exact .inr (.inl rfl)
    · cases h
      exact .inr (.inr rfl)

end Config

/-- Only what has just been stored is reported as written. -/
theorem run_eq_written {config : Config} {disk after : Disk} {m : Manifest}
    (h : (run config).on disk = (.ok (.written m), after)) :
    ∃ s, config.reading.found disk = .ok s ∧
      (store config.outDir s.cacheKey s.output).on disk = (.ok m, after) := by
  rw [run_on] at h
  split at h
  · cases h
  · next planned plan =>
    obtain ⟨s, read, ⟨m', -, rfl⟩ | rfl | rfl⟩ := Config.plan_cases plan
    · cases h
    · cases h
    · obtain ⟨m', later, stored, h⟩ := on_bind_eq_ok_iff.1 h
      cases h
      exact ⟨s, read, stored⟩

/-- What is used again was found on the disk, which stays as it is. -/
theorem run_eq_cached {config : Config} {disk after : Disk} {m : Manifest}
    (h : (run config).on disk = (.ok (.cached m), after)) :
    ∃ s, config.reading.found disk = .ok s ∧
      (config.reusable s.cacheKey).found disk = .ok (some m) ∧ after = disk := by
  rw [run_on] at h
  split at h
  · cases h
  · next planned plan =>
    obtain ⟨s, read, ⟨m', found, rfl⟩ | rfl | rfl⟩ := Config.plan_cases plan
    · cases h
      exact ⟨s, read, found, rfl⟩
    · cases h
    · obtain ⟨m', later, stored, h⟩ := on_bind_eq_ok_iff.1 h
      cases h

/-- A strict run that fails for its diagnostics does so before it writes. -/
theorem run_strict_iff {config : Config} {disk : Disk} {count : Nat} :
    ((run config).on disk).1 = .error (.strict count) ↔
      config.plan disk = .error (.strict count) := by
  rw [run_on]
  constructor
  · intro h
    split at h
    · next e plan =>
      cases h
      exact plan
    · next planned plan =>
      cases planned with
      | settled outcome => cases h
      | store cacheKey output =>
        have blame := (failsOnDisk_store config.outDir cacheKey output).bind
          (fun m => failsOnDisk_pure (Outcome.written m)) disk _ h
        obtain ⟨path, cause, bad⟩ := blame
        cases bad
  · intro h
    rw [h]

theorem intactManifest_found (path cacheKey : String) (disk : Disk) :
    (intactManifest path cacheKey).found disk =
      match disk.openDirectory none path with
      | .ok here => .ok ((manifest? disk here).filter fun m =>
          m.cacheKey == cacheKey && m.units.all (disk.isFile here ·))
      | .error .notFound => .ok none
      | .error e => .error (.disk path e) := by
  rw [found, intactManifest, on_bind, openIfPresent_on]
  cases disk.openDirectory none path with
  | ok here => rfl
  | error e => cases e <;> rfl

/-- A manifest counts as intact if it has the key and all units that it lists are there. -/
theorem intactManifest_eq_some_iff {disk : Disk} {path cacheKey : String} {here : Location}
    {m : Manifest} (isOpen : disk.openDirectory none path = .ok here) :
    (intactManifest path cacheKey).on disk = (.ok (some m), disk) ↔
      manifest? disk here = some m ∧ m.cacheKey = cacheKey ∧
        ∀ name ∈ m.units, disk.isFile here name = true := by
  rw [(looks_intactManifest path cacheKey).on_eq, intactManifest_found, isOpen]
  simp [Option.filter_eq_some_iff]

theorem exists_text_of_reading {config : Config} {disk : Disk} {s : Snapshot}
    (h : config.reading.found disk = .ok s) : ∃ text, Snapshot.read text = .ok s := by
  have ran := config.looks_reading.on_eq disk
  rw [h] at ran
  obtain ⟨path, _, -, ran⟩ := on_bind_eq_ok_iff.1 ran
  obtain ⟨text, _, -, ran⟩ := on_bind_eq_ok_iff.1 ran
  refine ⟨text, ?_⟩
  cases result : Snapshot.read text with
  | ok t =>
    rw [result] at ran
    cases ran
    rfl
  | error refusal =>
    rw [result] at ran
    cases ran

end HierarchyAccessors
