import HierarchyAccessors.Run

/-!
# What a run decides before it writes

Up to the point where it writes, a run only looks at the disk. What it finds out there is its plan
(`Config.plan`): to stop with an error, to settle for an outcome that needs nothing written, or to
store some output. Carrying the plan out is all that is left to do (`run_eq`).
-/

namespace HierarchyAccessors

/-! ## Actions on a disk -/

namespace RunM

variable {α β : Type}

/-- The result of an action, and the disk after it. -/
def on (action : RunM α) (disk : Disk) : Except RunError α × Disk :=
  (ExceptT.run action).run disk

theorem on_bind (action : RunM α) (next : α → RunM β) (disk : Disk) :
    (action >>= next).on disk =
      match action.on disk with
      | (.ok a, after) => (next a).on after
      | (.error e, after) => (.error e, after) := by
  simp only [on, ExceptT.run_bind, StateT.run_bind]
  show (match (ExceptT.run action).run disk with
    | (result, after) => _) = _
  cases (ExceptT.run action).run disk with
  | mk result after => cases result <;> rfl

theorem on_get (next : Disk → RunM α) (disk : Disk) :
    (get >>= next).on disk = (next disk).on disk := rfl

theorem on_lift (result : Except RunError α) (disk : Disk) :
    (liftM result : RunM α).on disk = (result, disk) := by
  cases result <;> rfl

/-- What is only looked at stays as it is. -/
theorem on_look (path : String) (operation : Disk → Except DiskError α) (disk : Disk) :
    (look path operation).on disk = ((operation disk).mapError (.disk path), disk) := by
  rw [look, on_get]
  cases operation disk <;> rfl

theorem on_change (path : String) (operation : Disk → Except DiskError Disk) (disk : Disk) :
    (change path operation).on disk =
      match operation disk with
      | .ok after => (.ok (), after)
      | .error e => (.error (.disk path e), disk) := by
  rw [change, on_get]
  cases operation disk <;> rfl

/-- An action in two steps succeeds when both steps do. -/
theorem on_bind_eq_ok_iff {action : RunM α} {next : α → RunM β} {disk later : Disk} {b : β} :
    (action >>= next).on disk = (.ok b, later) ↔
      ∃ a after, action.on disk = (.ok a, after) ∧ (next a).on after = (.ok b, later) := by
  rw [on_bind]
  constructor
  · intro h
    split at h
    · next a after first => exact ⟨a, after, first, h⟩
    · cases h
  · rintro ⟨a, after, first, second⟩
    rw [first]
    exact second

/-- An action in two steps fails when one of them does. -/
theorem on_bind_eq_error_iff {action : RunM α} {next : α → RunM β} {disk later : Disk}
    {e : RunError} : (action >>= next).on disk = (.error e, later) ↔
      action.on disk = (.error e, later) ∨
        ∃ a after, action.on disk = (.ok a, after) ∧ (next a).on after = (.error e, later) := by
  rw [on_bind]
  constructor
  · intro h
    split at h
    · next a after first => exact .inr ⟨a, after, first, h⟩
    · next e' after first =>
      cases h
      exact .inl first
  · rintro (first | ⟨a, after, first, second⟩)
    · rw [first]
    · rw [first]
      exact second

/-- Actions one after the other fail at the first that fails. -/
theorem on_forM_eq_error {as : List α} {step : α → RunM Unit} {disk after : Disk} {e : RunError}
    (h : (as.forM step).on disk = (.error e, after)) :
    ∃ done a rest between, as = done ++ a :: rest ∧
      (done.forM step).on disk = (.ok (), between) ∧
      (step a).on between = (.error e, after) := by
  induction as generalizing disk with
  | nil => cases h
  | cons a as ih =>
    rcases on_bind_eq_error_iff.1 h with first | ⟨⟨⟩, between, first, h⟩
    · exact ⟨[], a, as, disk, rfl, rfl, first⟩
    · obtain ⟨done, b, rest, later, rfl, succeeded, failed⟩ := ih h
      exact ⟨a :: done, b, rest, later, rfl, on_bind_eq_ok_iff.2 ⟨(), between, first, succeeded⟩,
        failed⟩

/-! ## Actions that only look -/

/-- The action leaves every disk as it is. -/
def Looks (action : RunM α) : Prop :=
  ∀ disk, (action.on disk).2 = disk

/-- What an action finds on a disk. -/
def found (action : RunM α) (disk : Disk) : Except RunError α :=
  (action.on disk).1

theorem Looks.on_eq {action : RunM α} (h : Looks action) (disk : Disk) :
    action.on disk = (action.found disk, disk) :=
  Prod.ext rfl (h disk)

theorem Looks.bind {action : RunM α} {next : α → RunM β} (h : Looks action)
    (h' : ∀ a, Looks (next a)) : Looks (action >>= next) := by
  intro disk
  rw [on_bind, h.on_eq]
  cases action.found disk with
  | error e => rfl
  | ok a => exact h' a disk

theorem looks_pure (a : α) : Looks (pure a) := fun _ => rfl

theorem looks_throw (e : RunError) : Looks (throw e : RunM α) := fun _ => rfl

theorem looks_lift (result : Except RunError α) : Looks (liftM result : RunM α) := by
  intro disk
  rw [on_lift]

theorem looks_look (path : String) (operation : Disk → Except DiskError α) :
    Looks (look path operation) := by
  intro disk
  rw [on_look]

/-! ## Actions that fail on the disk only -/

/-- Whenever the action fails, the disk is to blame. -/
def FailsOnDisk (action : RunM α) : Prop :=
  ∀ disk e, (action.on disk).1 = .error e → ∃ path cause, e = .disk path cause

theorem failsOnDisk_pure (a : α) : FailsOnDisk (pure a) := by
  intro disk e h
  cases h

theorem FailsOnDisk.bind {action : RunM α} {next : α → RunM β} (h : FailsOnDisk action)
    (h' : ∀ a, FailsOnDisk (next a)) : FailsOnDisk (action >>= next) := by
  intro disk e failed
  rw [on_bind] at failed
  split at failed
  · next a after _ => exact h' a after e failed
  · next cause after first =>
    obtain rfl : cause = e := Except.error.inj failed
    exact h disk cause (by rw [first])

theorem FailsOnDisk.get_bind {next : Disk → RunM α} (h : ∀ disk, FailsOnDisk (next disk)) :
    FailsOnDisk (get >>= next) := by
  intro disk
  exact h disk disk

theorem FailsOnDisk.forM {as : List α} {step : α → RunM Unit} (h : ∀ a, FailsOnDisk (step a)) :
    FailsOnDisk (as.forM step) := by
  induction as with
  | nil => exact failsOnDisk_pure ()
  | cons a as ih => exact (h a).bind fun _ => ih

theorem failsOnDisk_look (path : String) (operation : Disk → Except DiskError α) :
    FailsOnDisk (look path operation) := by
  intro disk e h
  rw [on_look] at h
  cases result : operation disk with
  | ok a =>
    rw [result] at h
    cases h
  | error cause =>
    rw [result] at h
    cases h
    exact ⟨_, _, rfl⟩

theorem failsOnDisk_change (path : String) (operation : Disk → Except DiskError Disk) :
    FailsOnDisk (change path operation) := by
  intro disk e h
  rw [on_change] at h
  split at h
  · cases h
  · cases h
    exact ⟨_, _, rfl⟩

end RunM

open RunM

theorem looks_readFileText (path : String) : Looks (readFileText path) := by
  unfold readFileText
  cases Path.fileName? path with
  | none => exact looks_throw _
  | some name => exact (looks_look _ _).bind fun _ => looks_look _ _

theorem looks_readSnapshot (path : String) : Looks (readSnapshot path) := by
  refine (looks_readFileText path).bind fun text => ?_
  cases Snapshot.read text with
  | error refusal => exact looks_throw _
  | ok snapshot => exact looks_pure _

theorem OutputDirectory.looks_openIfPresent (path : String) : Looks (openIfPresent path) := by
  intro disk
  rw [openIfPresent, on_get]
  split <;> rfl

theorem OutputDirectory.looks_intactManifest (path cacheKey : String) :
    Looks (intactManifest path cacheKey) := by
  refine (looks_openIfPresent path).bind fun opened => ?_
  cases opened with
  | none => exact looks_pure _
  | some here => exact fun _ => rfl

theorem Config.looks_reusable (config : Config) (cacheKey : String) :
    Looks (config.reusable cacheKey) := by
  unfold Config.reusable
  split
  · exact OutputDirectory.looks_intactManifest _ _
  · exact looks_pure _

/-! ## The plan -/

/-- What is left to do once a run has read what it needs. -/
inductive Plan
  /-- Nothing needs to be written. -/
  | settled (outcome : Outcome)
  /-- The output is to be stored under the key. -/
  | store (cacheKey : String) (output : Output)

/-- The output of a pass over the snapshot. -/
def Snapshot.output (snapshot : Snapshot) : Output :=
  generate snapshot.files snapshot.facts.facts

namespace Config

/-- The snapshot that a run reads. -/
def reading (config : Config) : RunM Snapshot := do
  readSnapshot (← config.requiredSnapshot)

theorem looks_reading (config : Config) : Looks config.reading :=
  (looks_lift _).bind looks_readSnapshot

/-- The plan for a snapshot, given the output that can be used again. -/
def planFor (config : Config) (snapshot : Snapshot) : Option Manifest → Except RunError Plan
  | some manifest => do
    config.checkStrict manifest.diagnostics.length
    return .settled (.cached manifest)
  | none => do
    config.checkStrict snapshot.output.diagnostics.length
    if config.dryRun then return .settled (.planned (.ofOutput snapshot.cacheKey snapshot.output))
    return .store snapshot.cacheKey snapshot.output

/-- The plan of a run on a disk. -/
def plan (config : Config) (disk : Disk) : Except RunError Plan := do
  let snapshot ← config.reading.found disk
  config.planFor snapshot (← (config.reusable snapshot.cacheKey).found disk)

end Config

/-- Carries out a plan. -/
def Plan.carryOut (outDir : String) : Plan → RunM Outcome
  | settled outcome => return outcome
  | store cacheKey output => return .written (← OutputDirectory.store outDir cacheKey output)

/-- The steps of a run, of which only the last may write. -/
theorem run_eq_bind (config : Config) : run config =
    config.reading >>= fun snapshot =>
      config.reusable snapshot.cacheKey >>= fun reusable =>
        liftM (config.planFor snapshot reusable) >>= Plan.carryOut config.outDir := by
  unfold run Config.reading
  rw [bind_assoc]
  refine bind_congr fun path => bind_congr fun snapshot => bind_congr fun reusable => ?_
  cases reusable with
  | some manifest =>
    simp only [Config.planFor]
    cases config.checkStrict manifest.diagnostics.length <;> rfl
  | none =>
    simp only [Config.planFor, Snapshot.output]
    cases config.checkStrict
      (generate snapshot.files snapshot.facts.facts).diagnostics.length with
    | error e => rfl
    | ok _ =>
      cases config.dryRun <;> rfl

/-- **A run is its plan, carried out.** Nothing is written before the plan is made, and none of it
if the plan fails. -/
theorem run_on (config : Config) (disk : Disk) :
    (run config).on disk =
      match config.plan disk with
      | .error e => (.error e, disk)
      | .ok plan => (plan.carryOut config.outDir).on disk := by
  rw [run_eq_bind, on_bind, config.looks_reading.on_eq, Config.plan]
  cases config.reading.found disk with
  | error e => rfl
  | ok snapshot =>
    show ((config.reusable snapshot.cacheKey >>= _ : RunM Outcome).on disk) = _
    rw [on_bind, (config.looks_reusable snapshot.cacheKey).on_eq]
    simp only [bind, Except.bind]
    cases (config.reusable snapshot.cacheKey).found disk with
    | error e => rfl
    | ok reusable =>
      show ((liftM (config.planFor snapshot reusable) >>= _ : RunM Outcome).on disk) = _
      rw [on_bind, on_lift]
      dsimp only
      cases config.planFor snapshot reusable <;> rfl

end HierarchyAccessors
