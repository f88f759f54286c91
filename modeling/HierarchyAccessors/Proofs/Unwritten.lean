import HierarchyAccessors.Proofs.SingleRun
import HierarchyAccessors.Proofs.Storing.Update

/-!
# Runs that leave the disk as it is

A run writes in one case only: its plan is to store an output. All that can then come of it is a
manifest that has been written or a disk error, so every other result says that nothing has been
written (`Unwritten`). A strict run does not get as far as such a plan if the pass has diagnostics:
it fails for these, unless it uses output again, and then it goes by the diagnostics in the
manifest.

**Theorem (`run_leaves_disk`).** A run with a result of the first kind leaves every disk as it is,
and so does every strict run over a snapshot whose pass is not clean, whatever stands in the output
directory.
-/

namespace HierarchyAccessors

open OutputDirectory RunM

/-- The results of runs that have not begun to write. -/
inductive Unwritten : Except RunError Outcome → Prop
  | cached (manifest : Manifest) : Unwritten (.ok (.cached manifest))
  | planned (manifest : Manifest) : Unwritten (.ok (.planned manifest))
  | missingSnapshot : Unwritten (.error .missingSnapshot)
  | snapshot (path : String) (refusal : Snapshot.Refusal) :
    Unwritten (.error (.snapshot path refusal))
  | strict (count : Nat) : Unwritten (.error (.strict count))

/-! ## What comes of writing -/

/-- Once a run writes, it has written or the disk is to blame. -/
theorem not_unwritten_of_store {outDir cacheKey : String} {output : Output} {disk after : Disk}
    {result : Except RunError Outcome}
    (h : ((Plan.store cacheKey output).carryOut outDir).on disk = (result, after)) :
    ¬Unwritten result := by
  intro unwritten
  cases result with
  | ok outcome =>
    obtain ⟨m, later, -, returned⟩ := on_bind_eq_ok_iff.1 h
    cases returned
    cases unwritten
  | error e =>
    have blame := (failsOnDisk_store outDir cacheKey output).bind
      fun m => failsOnDisk_pure (Outcome.written m)
    obtain ⟨path, cause, rfl⟩ := blame disk e (congrArg Prod.fst h)
    cases unwritten

theorem run_of_unwritten {config : Config} {disk after : Disk} {result : Except RunError Outcome}
    (h : (run config).on disk = (result, after)) (unwritten : Unwritten result) : after = disk := by
  rw [run_on] at h
  cases plan : config.plan disk with
  | error e =>
    rw [plan] at h
    exact (Prod.mk.inj h).2.symm
  | ok planned =>
    rw [plan] at h
    cases planned with
    | settled outcome => exact (Prod.mk.inj h).2.symm
    | store cacheKey output => exact absurd unwritten (not_unwritten_of_store h)

/-! ## Strict runs -/

/-- What comes of a strict run, given the diagnostics of the pass and the output that can be used
again. -/
def strictResult (count : Nat) : Option Manifest → Except RunError Outcome
  | none => .error (.strict count)
  | some m =>
    if m.diagnostics = [] then .ok (.cached m) else .error (.strict m.diagnostics.length)

/-- Where the pass has diagnostics, a strict run plans nothing but to use output again that has
none. -/
theorem planFor_of_strict {config : Config} {s : Snapshot} (strict : config.strict = true)
    (unclean : s.output.hasNoDiagnostics = false) (reusable : Option Manifest) :
    config.planFor s reusable =
      (strictResult s.output.diagnostics.length reusable).map .settled := by
  have check (count : Nat) (pos : 0 < count) :
      config.checkStrict count = .error (.strict count) := if_pos ⟨strict, pos⟩
  cases reusable with
  | none =>
    have some : 0 < s.output.diagnostics.length := by
      rw [List.length_pos_iff, ← List.isEmpty_eq_false_iff]
      exact unclean
    rw [Config.planFor, check _ some]
    rfl
  | some m =>
    rw [Config.planFor, strictResult]
    by_cases none : m.diagnostics = []
    · have passes : config.checkStrict m.diagnostics.length = .ok () := by
        simp [Config.checkStrict, none]
      rw [passes, if_pos none]
      rfl
    · rw [check _ (List.length_pos_iff.2 none), if_neg none]
      rfl

theorem run_of_strict {config : Config} {disk : Disk} {s : Snapshot} (strict : config.strict = true)
    (read : config.reading.found disk = .ok s) (unclean : s.output.hasNoDiagnostics = false) :
    (run config).on disk =
      ((config.reusable s.cacheKey).found disk >>= strictResult s.output.diagnostics.length,
        disk) := by
  rw [run_on, Config.plan_eq read]
  cases (config.reusable s.cacheKey).found disk with
  | error e => rfl
  | ok reusable =>
    simp only [bind, Except.bind, planFor_of_strict strict unclean]
    cases strictResult s.output.diagnostics.length reusable <;> rfl

theorem not_written_of_strictResult {count : Nat} {found : Except RunError (Option Manifest)}
    (m : Manifest) :
    found >>= strictResult count ≠ .ok (.written m) ∧
      found >>= strictResult count ≠ .ok (.planned m) := by
  rcases found with e | _ | earlier
  · exact ⟨nofun, nofun⟩
  · exact ⟨nofun, nofun⟩
  · show strictResult count (some earlier) ≠ _ ∧ strictResult count (some earlier) ≠ _
    rw [strictResult]
    split <;> exact ⟨nofun, nofun⟩

/-! ## The disk afterwards -/

/-- **Only a run that has written or that the disk has failed can have changed the disk.** Any other
run leaves it as it is. So does a strict run over a snapshot whose pass is not clean, whatever its
result is and whatever the output directory holds; it neither writes nor plans anything. Without
output to use again it counts the diagnostics of the pass, and with such output it counts those of
the manifest and reports the output as used again if there are none. -/
theorem run_leaves_disk (config : Config) (disk : Disk) :
    (∀ result after, (run config).on disk = (result, after) → Unwritten result → after = disk) ∧
    ∀ s, config.strict = true → config.reading.found disk = .ok s →
      (generate s.files s.facts.facts).hasNoDiagnostics = false →
      ∃ result, (run config).on disk = (result, disk) ∧
        (∀ m, result ≠ .ok (.written m) ∧ result ≠ .ok (.planned m)) ∧
        ((config.reusable s.cacheKey).found disk = .ok none →
          result = .error (.strict (generate s.files s.facts.facts).diagnostics.length)) ∧
        ∀ m, (config.reusable s.cacheKey).found disk = .ok (some m) →
          result = if m.diagnostics = [] then .ok (.cached m)
            else .error (.strict m.diagnostics.length) := by
  refine ⟨fun result after ran => run_of_unwritten ran, fun s strict read unclean => ?_⟩
  refine ⟨_, run_of_strict strict read unclean, not_written_of_strictResult, ?_, fun m => ?_⟩
  · intro nothing
    rw [nothing]
    rfl
  · intro again
    rw [again]
    rfl

/-- A field whose marker has no argument and whose variable has no symbol. -/
def Snapshot.unboundField : Snapshot where
  files := [⟨"Door.cs", [.fieldDecl ⟨[[⟨"FromHierarchy", []⟩]], "Handle", [⟨1, "_handle"⟩]⟩]⟩]
  facts := .empty

/-- The manifest in the output directory has the key of the snapshot and no diagnostics, as no run
would have left it. A strict run uses that output again; without the cache it fails. -/
theorem run_leaves_disk_with_altered_manifest :
    let s := Snapshot.unboundField
    let stored : Output := ⟨[Schema.unit], []⟩
    let disk := storedDisk s.cacheKey stored [(["work", "in"], .file (Disk.bytesOf s.canonical))]
    let config : Config := { snapshot := some "in", outDir := "out", strict := true }
    config.reading.found disk = .ok s ∧
      (generate s.files s.facts.facts).hasNoDiagnostics = false ∧
      (run { config with cache := true }).on disk =
        (.ok (.cached (.ofOutput s.cacheKey stored)), disk) ∧
      ∃ after, (run config).on disk = (.error (.strict 1), after) ∧
        Unwritten (.error (.strict 1)) ∧ after = disk := by
  intro s stored disk config
  have accepted : Snapshot.read s.canonical = .ok s :=
    (Snapshot.read_eq_ok_iff (Json.Value.tokens_compact _)).2 (by decide)
  have read : config.reading.found disk = .ok s := reading_in rfl accepted rfl rfl
  have unclean : (generate s.files s.facts.facts).hasNoDiagnostics = false := by decide +kernel
  refine ⟨read, unclean, ?_, ?_⟩
  · have opened : disk.openDirectory none "out" = .ok ["work", "out"] := rfl
    have present : disk.isFile ["work", "out"] Schema.unit.name = true := rfl
    have again : (({ config with cache := true } : Config).reusable s.cacheKey).found disk =
        .ok (some (.ofOutput s.cacheKey stored)) := by
      rw [Config.reusable, if_pos ⟨rfl, Bool.false_ne_true⟩, intactManifest_found, opened]
      simp only [disk, manifest?_storedDisk]
      simp [Option.filter, Manifest.ofOutput, stored, present, disk]
    obtain ⟨result, ran, -, -, reused⟩ :=
      (run_leaves_disk { config with cache := true } disk).2 s rfl read unclean
    rw [ran, reused _ again]
    rfl
  · have count : (generate s.files s.facts.facts).diagnostics.length = 1 := by decide +kernel
    obtain ⟨unchanged, strict⟩ := run_leaves_disk config disk
    obtain ⟨result, ran, -, counted, -⟩ := strict s rfl read unclean
    rw [counted rfl, count] at ran
    exact ⟨disk, ran, .strict 1, unchanged _ _ ran (.strict 1)⟩

end HierarchyAccessors
