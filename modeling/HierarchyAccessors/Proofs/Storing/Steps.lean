import HierarchyAccessors.Proofs.Disk.Files
import HierarchyAccessors.Proofs.Planning

/-!
# The steps of storing

Once the directory is open, storing is a list of steps that each put one file into it or remove one
from it (`fileSteps`, `store_on`). What steps do to the disk is put down entry by entry, whatever
names they go by: an entry holds what the last step on it leaves, and an entry that no step is on is
as it was (`Ran`).
-/

namespace HierarchyAccessors.OutputDirectory

open Disk (Openable SameDirectories bytesOf)
open RunM

/-! ## Putting and removing -/

theorem putFile_on (path : String) (here : Location) (name text : String) (disk : Disk) :
    (putFile path here name text).on disk =
      match disk.writeText here name text with
      | .ok after => (.ok (), after)
      | .error e => (.error (.disk (Path.join path name) e), disk) :=
  on_change _ _ _

theorem putFile_eq_ok_iff {path : String} {here : Location} {name text : String}
    {disk after : Disk} : (putFile path here name text).on disk = (.ok (), after) ↔
      disk.writeText here name text = .ok after := by
  rw [putFile_on]
  cases disk.writeText here name text <;> simp

theorem removeFile_on (path : String) (here : Location) (name : String) (disk : Disk) :
    (removeFile path here name).on disk =
      match disk.removeFile here name with
      | .ok after => (.ok (), after)
      | .error .notFound => (.ok (), disk)
      | .error e => (.error (.disk (Path.join path name) e), disk) := by
  rw [removeFile, on_get]
  cases disk.removeFile here name with
  | ok after => rfl
  | error e => cases e <;> rfl

/-- A step of storing. -/
inductive FileStep
  | put (file : SourceUnit)
  | remove (name : String)

namespace FileStep

def name : FileStep → String
  | put file => file.name
  | remove name => name

/-- What the step leaves at the entry of its name. -/
def leaves : FileStep → Option Node
  | put file => some (.file (bytesOf file.source))
  | remove _ => none

def run (path : String) (here : Location) : FileStep → RunM Unit
  | put file => putFile path here file.name file.source
  | remove name => removeFile path here name

/-- A step that fails changes nothing. -/
theorem run_eq_error {path : String} {here : Location} {step : FileStep} {disk after : Disk}
    {e : RunError} (h : (step.run path here).on disk = (.error e, after)) :
    after = disk ∧ ∃ cause, e = .disk (Path.join path step.name) cause := by
  cases step with
  | put file =>
    rw [run, putFile_on] at h
    split at h
    · cases h
    · cases h
      exact ⟨rfl, _, rfl⟩
  | remove name =>
    rw [run, removeFile_on] at h
    split at h
    · cases h
    · cases h
    · cases h
      exact ⟨rfl, _, rfl⟩

end FileStep

/-! ## What steps leave -/

/-- What steps leave at an entry: what the last step on it leaves, or what was there. -/
inductive LeftAt (disk : Disk) (here : Location) (steps : List FileStep) (l : Location)
    (node : Option Node) : Prop
  | untouched (none : ∀ step ∈ steps, ¬disk.Denotes here step.name l) (same : node = disk.node? l)
  | last {before later : List FileStep} {step : FileStep} (parts : steps = before ++ step :: later)
    (denotes : disk.Denotes here step.name l)
    (final : ∀ next ∈ later, ¬disk.Denotes here next.name l) (left : node = step.leaves)

/-- Steps leave one thing at an entry. -/
theorem LeftAt.unique {disk : Disk} {here : Location} {steps : List FileStep} {l : Location}
    {node node' : Option Node} (h : LeftAt disk here steps l node)
    (h' : LeftAt disk here steps l node') : node = node' := by
  have not_later {before later before' later' : List FileStep} {step step' : FileStep}
      (parts : before ++ step :: later = before' ++ step' :: later')
      (denotes' : disk.Denotes here step'.name l)
      (final : ∀ next ∈ later, ¬disk.Denotes here next.name l) :
      ∃ between, before = before' ++ between := by
    rcases List.append_eq_append_iff.1 parts with ⟨_ | ⟨_, between⟩, rfl, eq⟩ | ⟨between, eq, -⟩
    · exact ⟨[], by simp⟩
    · obtain ⟨-, rfl⟩ := List.cons.inj eq
      exact absurd denotes' (final step' (by simp))
    · exact ⟨between, eq⟩
  cases h with
  | untouched none same =>
    cases h' with
    | untouched _ same' => rw [same, same']
    | last parts denotes => exact absurd denotes (none _ (by simp [parts]))
  | last parts denotes final left =>
    cases h' with
    | untouched none => exact absurd denotes (none _ (by simp [parts]))
    | last parts' denotes' final' left' =>
      have both := parts.symm.trans parts'
      obtain ⟨between, eq⟩ := not_later both denotes' final
      obtain ⟨between', eq'⟩ := not_later both.symm denotes final'
      have length : between.length = 0 := by
        have lengths := congrArg List.length eq'
        rw [eq] at lengths
        simp only [List.length_append] at lengths
        omega
      rw [List.length_eq_zero_iff.1 length, List.append_nil] at eq
      rw [eq] at both
      rw [left, left', (List.cons.inj (List.append_cancel_left both)).1]

/-- The steps were done one after the other, and nothing else has changed. -/
structure Ran (disk after : Disk) (here : Location) (steps : List FileStep) : Prop where
  same : SameDirectories disk after
  left : ∀ l, LeftAt disk here steps l (after.node? l)

namespace Ran

variable {disk between after : Disk} {here : Location} {step : FileStep} {steps : List FileStep}

theorem nil (disk : Disk) (here : Location) : Ran disk disk here [] where
  same := .refl disk
  left _ := .untouched (by simp) rfl

/-- One step, told by what it does at its own entry and elsewhere. -/
theorem singleton (same : SameDirectories disk after)
    (own : ∀ l, disk.Denotes here step.name l → after.node? l = step.leaves)
    (others : ∀ l, ¬disk.Denotes here step.name l → after.node? l = disk.node? l) :
    Ran disk after here [step] := by
  refine ⟨same, fun l => ?_⟩
  by_cases denotes : disk.Denotes here step.name l
  · exact .last (List.nil_append _).symm denotes (by simp) (own l denotes)
  · exact .untouched (by simpa using denotes) (others l denotes)

theorem cons (first : Ran disk between here [step]) (rest : Ran between after here steps) :
    Ran disk after here (step :: steps) := by
  have names {next : FileStep} {l : Location} :
      between.Denotes here next.name l ↔ disk.Denotes here next.name l := first.same.denotes_iff
  refine ⟨first.same.trans rest.same, fun l => ?_⟩
  rcases rest.left l with ⟨none, same⟩ | ⟨parts, denotes, final, left⟩
  · have notLater : ∀ next ∈ steps, ¬disk.Denotes here next.name l :=
      fun next hnext => mt names.2 (none next hnext)
    rw [same]
    -- The rest leaves the entry alone, so it holds what the first step left there.
    rcases first.left l with ⟨notFirst, same⟩ | @⟨before, later, last, parts, denotes, -, left⟩
    · exact .untouched (List.forall_mem_cons.2 ⟨notFirst step (by simp), notLater⟩) same
    · have only : last ∈ [step] := by simp [parts]
      obtain rfl := List.mem_singleton.1 only
      exact .last (List.nil_append _).symm denotes notLater left
  · refine .last (List.cons_append ▸ congrArg (step :: ·) parts) (names.1 denotes) ?_ left
    exact fun next hnext => mt names.2 (final next hnext)

/-- Under a name that shares its entry with no step, the same is read as before. -/
theorem fileUnder?_eq (h : Ran disk after here steps) {name : String}
    (apart : ∀ step ∈ steps, ¬disk.SameEntry here step.name name) :
    after.fileUnder? here name = disk.fileUnder? here name := by
  apply h.same.fileUnder?_eq
  intro l denotes
  rcases h.left l with ⟨-, same⟩ | ⟨rfl, shared, -, -⟩
  · exact same
  · exact absurd ⟨l, shared, denotes⟩ (apart _ (List.mem_append_right _ List.mem_cons_self))

end Ran

theorem ran_of_run {path : String} {here : Location} {step : FileStep} {disk after : Disk}
    (directory : disk.node? here = some .directory)
    (h : (step.run path here).on disk = (.ok (), after)) : Ran disk after here [step] := by
  cases step with
  | put file =>
    obtain ⟨-, place, denotes, free, rfl⟩ := Disk.writeText_eq_ok_iff.1 (putFile_eq_ok_iff.1 h)
    refine .singleton (Disk.sameDirectories_set denotes.ne_nil _ free) ?_ ?_
    · intro l shared
      rw [shared.unique denotes, Disk.node?_set _ denotes.ne_nil, if_pos rfl]
      rfl
    · intro l apart
      have elsewhere : l ≠ place := by
        rintro rfl
        exact apart denotes
      rw [Disk.node?_set _ denotes.ne_nil, if_neg elsewhere]
  | remove name =>
    rw [FileStep.run, removeFile_on] at h
    split at h
    · next later removed =>
      cases h
      obtain ⟨place, bytes, denotes, file, rfl⟩ := Disk.removeFile_eq_ok directory removed
      refine .singleton (Disk.sameDirectories_erase denotes.ne_nil (by simp [file])) ?_ ?_
      · intro l shared
        rw [shared.unique denotes, Disk.node?_erase _ denotes.ne_nil, if_pos rfl]
        rfl
      · intro l apart
        have elsewhere : l ≠ place := by
          rintro rfl
          exact apart denotes
        rw [Disk.node?_erase _ denotes.ne_nil, if_neg elsewhere]
    · next missing =>
      cases h
      exact .singleton (.refl _)
        (fun l denotes => Disk.removeFile_eq_notFound directory denotes missing) fun _ _ => rfl
    · cases h

theorem ran_of_forM {path : String} {here : Location} {steps : List FileStep} {disk after : Disk}
    (directory : disk.node? here = some .directory)
    (h : (steps.forM (·.run path here)).on disk = (.ok (), after)) :
    Ran disk after here steps := by
  induction steps generalizing disk with
  | nil =>
    cases h
    exact .nil _ here
  | cons step steps ih =>
    obtain ⟨⟨⟩, between, first, h⟩ := on_bind_eq_ok_iff.1 h
    have ran := ran_of_run directory first
    exact .cons ran (ih (ran.same.keeps.directory here directory) h)

/-- Whether or not all steps succeed, the first ones were done. -/
theorem exists_ran_of_forM (path : String) {here : Location} (steps : List FileStep) {disk : Disk}
    (directory : disk.node? here = some .directory) : ∃ done, done <+: steps ∧
      Ran disk ((steps.forM (·.run path here)).on disk).2 here done := by
  cases h : (steps.forM (·.run path here)).on disk with
  | mk result after =>
    cases result with
    | ok => exact ⟨steps, List.prefix_rfl, ran_of_forM directory h⟩
    | error e =>
      obtain ⟨done, failing, rest, between, rfl, succeeded, failed⟩ := on_forM_eq_error h
      obtain ⟨rfl, -⟩ := FileStep.run_eq_error failed
      exact ⟨done, List.prefix_append _ _, ran_of_forM directory succeeded⟩

/-! ## Storing step by step -/

/-- What storing does in the open directory, in order, if it has found the manifest there. -/
def fileSteps (previous : Option Manifest) (cacheKey : String) (output : Output) : List FileStep :=
  output.units.map .put ++ ((previous.elim [] (stale · output)).map .remove ++
    [.put ⟨Manifest.fileName, (Manifest.ofOutput cacheKey output).pretty⟩])

theorem forall_mem_fileSteps {p : String → Prop} {previous : Option Manifest} {cacheKey : String}
    {output : Output} : (∀ step ∈ fileSteps previous cacheKey output, p step.name) ↔
      (∀ unit ∈ output.units, p unit.name) ∧
        (∀ name ∈ previous.elim [] (stale · output), p name) ∧ p Manifest.fileName := by
  unfold fileSteps
  simp only [List.forall_mem_append, List.forall_mem_map, List.forall_mem_singleton]
  exact Iff.rfl

theorem openIfPresent_on (path : String) (disk : Disk) :
    (openIfPresent path).on disk =
      match disk.openDirectory none path with
      | .ok here => (.ok (some here), disk)
      | .error .notFound => (.ok none, disk)
      | .error e => (.error (.disk path e), disk) := by
  rw [openIfPresent, on_get]
  cases disk.openDirectory none path with
  | ok here => rfl
  | error e => cases e <;> rfl

theorem openOrMake_of_openDirectory {path : String} {disk : Disk} {here : Location}
    (isOpen : disk.openDirectory none path = .ok here) :
    (openOrMake path).on disk = (.ok here, disk) := by
  rw [openOrMake, on_bind, openIfPresent_on, isOpen]
  rfl

/-- Once the directory is open, storing is a list of steps. -/
theorem store_on {disk opened : Disk} {path : String} {here : Location}
    (opening : (openOrMake path).on disk = (.ok here, opened)) (cacheKey : String)
    (output : Output) :
    (store path cacheKey output).on disk =
      ((fileSteps (manifest? opened here) cacheKey output).forM (·.run path here) >>=
        fun _ => pure (Manifest.ofOutput cacheKey output)).on opened := by
  rw [store, on_bind, opening]
  dsimp only
  rw [on_get, fileSteps]
  simp only [List.forM_eq_forM, List.forM_append, List.forM_map, List.forM_cons, List.forM_nil,
    bind_assoc, pure_bind]
  rfl

/-- Storing that succeeds has done all its steps. -/
theorem ran_of_store {disk opened after : Disk} {path cacheKey : String} {output : Output}
    {here : Location} {m : Manifest} (opening : (openOrMake path).on disk = (.ok here, opened))
    (directory : opened.node? here = some .directory)
    (h : (store path cacheKey output).on disk = (.ok m, after)) :
    Ran opened after here (fileSteps (manifest? opened here) cacheKey output) := by
  rw [store_on opening] at h
  obtain ⟨⟨⟩, last, stepping, h⟩ := on_bind_eq_ok_iff.1 h
  cases h
  exact ran_of_forM directory stepping

/-- Whether or not storing succeeds, its first steps were done. -/
theorem exists_ran_of_store {disk : Disk} {path : String} {here : Location}
    (isOpen : disk.openDirectory none path = .ok here) (cacheKey : String) (output : Output) :
    ∃ done, done <+: fileSteps (manifest? disk here) cacheKey output ∧
      Ran disk ((store path cacheKey output).on disk).2 here done := by
  obtain ⟨done, front, ran⟩ := exists_ran_of_forM path
    (fileSteps (manifest? disk here) cacheKey output) (Disk.openDirectory_eq_ok_iff.1 isOpen).2
  refine ⟨done, front, ?_⟩
  rw [store_on (openOrMake_of_openDirectory isOpen), on_bind]
  -- Whether or not all steps were done, nothing follows.
  generalize RunM.on _ disk = stepping at ran ⊢
  obtain ⟨_ | _, after⟩ := stepping
  · exact ran
  · exact ran

end HierarchyAccessors.OutputDirectory
