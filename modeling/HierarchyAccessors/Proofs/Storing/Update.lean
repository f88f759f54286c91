import HierarchyAccessors.Proofs.Storing

/-!
# What storing changes, and what it leaves alone

Whatever stands in a directory, storing an output brings it up to date, as long as the names that it
goes by denote different entries (`NamesApart`): the units of the output, those that the manifest
found there lists, and the manifest itself. Then the units and the manifest are those of the output,
listed units that the output does not have are gone, and no other file of the disk has changed
(`store_updates`).
-/

namespace HierarchyAccessors.OutputDirectory

open Disk (PlainName bytesOf)
open RunM

/-- Names that differ denote different entries. -/
def NamesApart (disk : Disk) (here : Location) (names : List String) : Prop :=
  ∀ name ∈ names, ∀ name' ∈ names, disk.SameEntry here name name' → name = name'

/-- The units that the manifest found in the directory lists. -/
def listed (disk : Disk) (here : Location) : List String :=
  (manifest? disk here).elim [] (·.units)

/-- The names that storing an output in the directory goes by. -/
def namesInvolved (disk : Disk) (here : Location) (output : Output) : List String :=
  output.units.map (·.name) ++ listed disk here ++ [Manifest.fileName]

theorem mem_namesInvolved {disk : Disk} {here : Location} {output : Output} {name : String} :
    name ∈ namesInvolved disk here output ↔
      name ∈ output.units.map (·.name) ∨ name ∈ listed disk here ∨ name = Manifest.fileName := by
  rw [namesInvolved, List.mem_append, List.mem_append, List.mem_singleton, or_assoc]

theorem mem_leftovers {disk : Disk} {here : Location} {output : Output} {name : String} :
    name ∈ leftovers disk here output ↔
      name ∈ listed disk here ∧ name ≠ Manifest.fileName ∧
        name ∉ output.units.map (·.name) := by
  unfold leftovers listed
  cases manifest? disk here with
  | none => simp
  | some m => simp [stale]

/-- Names of entries of the directory itself are apart. -/
theorem namesApart_of_plain {disk : Disk} {here : Location} {names : List String}
    (directory : disk.node? here = some .directory) (plain : ∀ name ∈ names, PlainName name) :
    NamesApart disk here names := by
  intro name hname name' hname' shared
  exact (plain name hname).eq_of_sameEntry (plain name' hname') directory shared

/-! ## The files after a store -/

namespace Stages

variable {opened written cleaned after : Disk} {here : Location} {cacheKey : String}
  {output : Output}

/-- The manifest was put there last. -/
theorem manifest? (h : Stages opened written cleaned after here cacheKey output) :
    OutputDirectory.manifest? after here = some (.ofOutput cacheKey output) := by
  have read := h.finishes.fileUnder?_of_mem (by simp) (List.mem_singleton_self _) (by simp)
  exact manifest?_eq_some read

/-- Neither removing nor the manifest touches an entry of the units. -/
theorem fileUnder?_unit (h : Stages opened written cleaned after here cacheKey output)
    (nodup : (output.units.map (·.name)).Nodup)
    (noManifest : Manifest.fileName ∉ output.units.map (·.name))
    (apart : NamesApart opened here (namesInvolved opened here output)) {unit : SourceUnit}
    (hunit : unit ∈ output.units) :
    after.fileUnder? here unit.name = some (bytesOf unit.source) := by
  have mem : unit.name ∈ output.units.map (·.name) := List.mem_map_of_mem hunit
  have involved : unit.name ∈ namesInvolved opened here output := mem_namesInvolved.2 (.inl mem)
  rw [h.finishes.fileUnder?_eq, h.removes.fileUnder?_eq]
  · refine h.puts.fileUnder?_of_mem nodup hunit fun next hnext ne shared => ne ?_
    exact apart _ (mem_namesInvolved.2 (.inl (List.mem_map_of_mem hnext))) _ involved shared
  · intro name hname shared
    rw [h.puts.same.sameEntry_iff] at shared
    obtain ⟨isListed, -, fresh⟩ := mem_leftovers.1 hname
    have same := apart name (mem_namesInvolved.2 (.inr (.inl isListed))) _ involved shared
    exact fresh (same ▸ mem)
  · intro file hfile shared
    obtain rfl := List.mem_singleton.1 hfile
    rw [h.sameUpToRemoval.sameEntry_iff] at shared
    have same := apart _ (mem_namesInvolved.2 (.inr (.inr rfl))) _ involved shared
    exact noManifest (same ▸ mem)

/-- The manifest is not put where a listed unit was removed. -/
theorem gone (h : Stages opened written cleaned after here cacheKey output)
    (apart : NamesApart opened here (namesInvolved opened here output)) {name : String}
    (hname : name ∈ leftovers opened here output) {l : Location}
    (denotes : after.Denotes here name l) : after.node? l = none := by
  rw [h.same.denotes_iff] at denotes
  obtain ⟨isListed, notManifest, -⟩ := mem_leftovers.1 hname
  rw [h.finishes.others l]
  · exact h.removes.gone hname (h.puts.same.denotes_iff.2 denotes)
  · intro file hfile denotesManifest
    obtain rfl := List.mem_singleton.1 hfile
    rw [h.sameUpToRemoval.denotes_iff] at denotesManifest
    exact notManifest <| apart name (mem_namesInvolved.2 (.inr (.inl isListed))) _
      (mem_namesInvolved.2 (.inr (.inr rfl))) ⟨l, denotes, denotesManifest⟩

/-- No phase touches an entry that none of the names denotes. -/
theorem node?_others (h : Stages opened written cleaned after here cacheKey output) {l : Location}
    (none : ∀ name ∈ namesInvolved opened here output, ¬opened.Denotes here name l) :
    after.node? l = opened.node? l := by
  rw [h.finishes.others l, h.removes.others l, h.puts.others l]
  · intro unit hunit
    exact none _ (mem_namesInvolved.2 (.inl (List.mem_map_of_mem hunit)))
  · intro name hname
    rw [h.puts.same.denotes_iff]
    exact none name (mem_namesInvolved.2 (.inr (.inl (mem_leftovers.1 hname).1)))
  · intro file hfile
    obtain rfl := List.mem_singleton.1 hfile
    rw [h.sameUpToRemoval.denotes_iff]
    exact none _ (mem_namesInvolved.2 (.inr (.inr rfl)))

end Stages

/-- **Storing brings the directory up to date and touches nothing else.** The units and the manifest
of the output can be read, listed units that are not among them are gone, and the files at all other
entries are as they were. -/
theorem store_updates {path cacheKey : String} {output : Output} {disk opened after : Disk}
    {here : Location} {m : Manifest} (opening : (openOrMake path).on disk = (.ok here, opened))
    (nodup : (output.units.map (·.name)).Nodup)
    (noManifest : Manifest.fileName ∉ output.units.map (·.name))
    (apart : NamesApart opened here (namesInvolved opened here output))
    (stored : (store path cacheKey output).on disk = (.ok m, after)) :
    m = .ofOutput cacheKey output ∧ manifest? after here = some m ∧
      (∀ unit ∈ output.units, after.fileUnder? here unit.name = some (bytesOf unit.source)) ∧
      (∀ name ∈ listed opened here, name ≠ Manifest.fileName →
        name ∉ output.units.map (·.name) →
        after.fileUnder? here name = none ∧ ∀ l, after.Denotes here name l → after.node? l = none) ∧
      ∀ l, (∀ name ∈ namesInvolved opened here output, ¬opened.Denotes here name l) →
        after.files [] l = disk.files [] l := by
  obtain ⟨rfl, here', opened', written, cleaned, opening', stages⟩ := store_eq_ok stored
  rw [opening] at opening'
  cases opening'
  refine ⟨rfl, stages.manifest?, ?units, ?stale, ?others⟩
  case units =>
    intro unit hunit
    exact stages.fileUnder?_unit nodup noManifest apart hunit
  case stale =>
    intro name hname notManifest notUnit
    have isLeft := mem_leftovers.2 ⟨hname, notManifest, notUnit⟩
    have gone (l : Location) (denotes : after.Denotes here name l) : after.node? l = none :=
      stages.gone apart isLeft denotes
    exact ⟨Disk.fileUnder?_eq_none gone, gone⟩
  case others =>
    intro l none
    rw [← (openOrMake_spec opening).1.files, Disk.files, Disk.files, List.nil_append,
      stages.node?_others none]

/-! ## A directory with an earlier output -/

/-- A disk with an output stored in the directory `out`, and with other nodes. -/
def storedDisk (cacheKey : String) (output : Output) (others : List (Location × Node)) : Disk where
  nodes :=
    [(["work"], .directory), (["work", "out"], .directory),
      (["work", "out", Manifest.fileName],
        .file (bytesOf (Manifest.ofOutput cacheKey output).pretty))] ++
      output.units.map (fun unit => (["work", "out", unit.name], .file (bytesOf unit.source))) ++
      others
  workingDirectory := ["work"]

theorem manifest?_storedDisk (cacheKey : String) (output : Output)
    (others : List (Location × Node)) :
    manifest? (storedDisk cacheKey output others) ["work", "out"] =
      some (.ofOutput cacheKey output) := by
  apply manifest?_eq_some
  rw [validName_manifest.fileUnder?_eq rfl]
  rfl

/-- One unit is written over, one is removed, and a file that belongs to neither output stays. -/
theorem store_updates_earlier_output :
    let earlier : Output := ⟨[⟨"A.g.cs", "old"⟩, ⟨"B.g.cs", "b"⟩], []⟩
    let later : Output := ⟨[⟨"A.g.cs", "new"⟩], []⟩
    let disk := storedDisk "one" earlier [(["work", "out", "C.txt"], .file (bytesOf "c"))]
    ∃ after, (store "out" "two" later).on disk = (.ok (.ofOutput "two" later), after) ∧
      manifest? after ["work", "out"] = some (.ofOutput "two" later) ∧
      after.fileUnder? ["work", "out"] "A.g.cs" = some (bytesOf "new") ∧
      after.fileUnder? ["work", "out"] "B.g.cs" = none ∧
      after.files [] ["work", "out", "C.txt"] = some (bytesOf "c") := by
  intro earlier later disk
  have opening : (openOrMake "out").on disk = (.ok ["work", "out"], disk) := rfl
  have directory : disk.node? ["work", "out"] = some .directory := rfl
  have found : manifest? disk ["work", "out"] = some (.ofOutput "one" earlier) :=
    manifest?_storedDisk _ _ _
  have names : namesInvolved disk ["work", "out"] later =
      ["A.g.cs", "A.g.cs", "B.g.cs", "manifest.json"] := by
    rw [namesInvolved, listed, found]
    rfl
  have plain : ∀ name ∈ namesInvolved disk ["work", "out"] later, PlainName name := by
    rw [names]
    decide
  let written := disk.set ["work", "out", "A.g.cs"] (.file (bytesOf "new"))
  let cleaned := written.erase ["work", "out", "B.g.cs"]
  let after := cleaned.set ["work", "out", Manifest.fileName]
    (.file (bytesOf (Manifest.ofOutput "two" later).pretty))
  have stored : (store "out" "two" later).on disk = (.ok (.ofOutput "two" later), after) := by
    refine on_bind_eq_ok_iff.2 ⟨["work", "out"], disk, opening, ?_⟩
    rw [on_get, found]
    refine on_bind_eq_ok_iff.2 ⟨(), written, rfl, ?_⟩
    refine on_bind_eq_ok_iff.2 ⟨(), cleaned, rfl, ?_⟩
    exact on_bind_eq_ok_iff.2 ⟨(), after, rfl, rfl⟩
  obtain ⟨-, manifest, units, stale, others⟩ :=
    store_updates opening (by decide) (by decide) (namesApart_of_plain directory plain) stored
  refine ⟨after, stored, manifest, units ⟨"A.g.cs", "new"⟩ (by simp [later]), ?_, ?_⟩
  · have isListed : "B.g.cs" ∈ listed disk ["work", "out"] := by
      rw [listed, found]
      simp [Manifest.ofOutput, earlier]
    exact (stale "B.g.cs" isListed (by decide) (by decide)).1
  · have notNamed : ∀ name ∈ namesInvolved disk ["work", "out"] later,
        ¬disk.Denotes ["work", "out"] name ["work", "out", "C.txt"] := by
      intro name hname denotes
      rw [(plain name hname).denotes_iff directory] at denotes
      obtain rfl : "C.txt" = name := by simpa using denotes
      rw [names] at hname
      simp at hname
    exact others ["work", "out", "C.txt"] notNamed

end HierarchyAccessors.OutputDirectory
