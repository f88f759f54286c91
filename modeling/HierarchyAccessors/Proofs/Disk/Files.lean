import HierarchyAccessors.Proofs.Disk.Operations

/-!
# The files of a directory

What lies below a directory is seen through `files`: the bytes under every list of names. A name
without a slash that does not lead elsewhere (`PlainName`) denotes an entry of the directory itself
(`PlainName.denotes_iff`). Making directories touches no file at all (`adds_makeAll`).
-/

namespace HierarchyAccessors.Disk

/-! ## Names -/

/-- A name that stands for an entry of the directory itself. -/
structure PlainName (name : String) : Prop where
  noSlash : '/' ∉ name.toList
  ne_empty : name ≠ ""
  ne_dot : name ≠ "."
  ne_dots : name ≠ ".."

/-- A name under which an entry can be made. -/
structure ValidName (name : String) : Prop extends PlainName name where
  allowed : checkPath name = .ok ()
  short : name.utf8ByteSize ≤ Path.maxName

instance (name : String) : Decidable (PlainName name) :=
  decidable_of_iff ('/' ∉ name.toList ∧ name ≠ "" ∧ name ≠ "." ∧ name ≠ "..")
    ⟨fun ⟨noSlash, ne_empty, ne_dot, ne_dots⟩ => ⟨noSlash, ne_empty, ne_dot, ne_dots⟩,
      fun plain => ⟨plain.noSlash, plain.ne_empty, plain.ne_dot, plain.ne_dots⟩⟩

instance (name : String) : Decidable (ValidName name) :=
  decidable_of_iff (PlainName name ∧ checkPath name = .ok () ∧ name.utf8ByteSize ≤ Path.maxName)
    ⟨fun ⟨plain, allowed, short⟩ => ⟨plain, allowed, short⟩,
      fun valid => ⟨valid.toPlainName, valid.allowed, valid.short⟩⟩

namespace PlainName

variable {name : String}

theorem names_eq (h : PlainName name) : Path.names name = [name] :=
  Path.names_of_noSlash h.noSlash

theorem isAbsolute_eq (h : PlainName name) : Path.isAbsolute name = false := by
  rw [Path.isAbsolute, decide_eq_false_iff_not]
  intro first
  exact h.noSlash (List.mem_of_head? first)

theorem not_leadsElsewhere (h : PlainName name) : ¬LeadsElsewhere name := by
  simpa [LeadsElsewhere] using ⟨h.ne_empty, h.ne_dot, h.ne_dots⟩

/-- The name denotes an entry of the directory itself. -/
theorem denotes_iff (h : PlainName name) {disk : Disk} {here l : Location}
    (directory : disk.node? here = some .directory) :
    disk.Denotes here name l ↔ l = here ++ [name] := by
  have stays : disk.LeadsTo here [] here := ⟨rfl, directory⟩
  have own : disk.Denotes here name (here ++ [name]) :=
    .entry h.isAbsolute_eq h.names_eq h.not_leadsElsewhere stays
  constructor
  · exact fun denotes => denotes.unique own
  · rintro rfl
    exact own

/-- Plain names of one entry are the same. -/
theorem eq_of_sameEntry {name' : String} (h : PlainName name) (h' : PlainName name') {disk : Disk}
    {here : Location} (directory : disk.node? here = some .directory)
    (shared : disk.SameEntry here name name') : name = name' := by
  obtain ⟨l, denotes, denotes'⟩ := shared
  rw [h.denotes_iff directory] at denotes
  rw [h'.denotes_iff directory, denotes] at denotes'
  simpa using denotes'

theorem openable_iff (h : PlainName name) : Openable name ↔ ValidName name := by
  have parts : Path.names name = [] ++ [name] := h.names_eq
  rw [openable_iff_of_names parts]
  constructor
  · rintro ⟨allowed, short⟩
    exact ⟨h, allowed, short⟩
  · intro valid
    exact ⟨valid.allowed, valid.short⟩

end PlainName

/-- A walk to an entry finds it or finds nothing. -/
theorem ValidName.locate_eq {name : String} (h : ValidName name) {disk : Disk} {here : Location}
    (directory : disk.node? here = some .directory) :
    disk.locate (some here) name =
      if (disk.node? (here ++ [name])).isNone then .error .notFound else .ok (here ++ [name]) := by
  have begins : disk.start (some here) name = .ok (here, [name]) :=
    start_some_eq_ok_iff.2 ⟨h.allowed, h.isAbsolute_eq, rfl, h.names_eq.symm⟩
  rw [locate, begins]
  simp only [bind, Except.bind, walkNames, directory, step_eq_of_leads h.not_leadsElsewhere,
    if_neg (Nat.not_lt.2 h.short)]
  by_cases missing : (disk.node? (here ++ [name])).isNone = true
  · rw [if_pos missing, if_pos missing]
    rfl
  · rw [if_neg missing, if_neg missing]

/-! ## Reading -/

/-- The text under a name. -/
theorem readText_eq {disk : Disk} {here : Location} {name : String} (h : ValidName name)
    (directory : disk.node? here = some .directory) :
    disk.readText here name = disk.bytesAt (here ++ [name]) >>= textOf := by
  rw [readText, h.locate_eq directory]
  by_cases missing : (disk.node? (here ++ [name])).isNone = true
  · rw [if_pos missing, bytesAt, Option.isNone_iff_eq_none.1 missing]
    rfl
  · rw [if_neg missing]
    rfl

/-! ## What lies below a directory -/

/-- The bytes of the files below a directory, by the names that lead there. -/
def files (disk : Disk) (here : Location) (names : List String) : Option (List UInt8) :=
  match disk.node? (here ++ names) with
  | some (.file bytes) => some bytes
  | _ => none

theorem files_eq_some_iff {disk : Disk} {here : Location} {names : List String}
    {bytes : List UInt8} :
    disk.files here names = some bytes ↔ disk.node? (here ++ names) = some (.file bytes) := by
  unfold files
  cases disk.node? (here ++ names) with
  | none => simp
  | some node => cases node <;> simp

/-- What is read under a name is the file at its entry. -/
theorem Denotes.fileUnder?_eq {disk : Disk} {here l : Location} {name : String}
    (denotes : disk.Denotes here name l) (openable : Openable name) :
    disk.fileUnder? here name = disk.files [] l := by
  ext bytes
  rw [fileUnder?_eq_some_iff, files_eq_some_iff, List.nil_append]
  constructor
  · rintro ⟨-, l', denotes', file⟩
    rwa [denotes.unique denotes']
  · exact fun file => ⟨openable, l, denotes, file⟩

/-- Where nothing stands at its entry, nothing is read under a name. -/
theorem fileUnder?_eq_none {disk : Disk} {here : Location} {name : String}
    (gone : ∀ l, disk.Denotes here name l → disk.node? l = none) :
    disk.fileUnder? here name = none := by
  rw [Option.eq_none_iff_forall_ne_some]
  intro bytes read
  obtain ⟨-, l, denotes, file⟩ := fileUnder?_eq_some_iff.1 read
  rw [gone l denotes] at file
  cases file

theorem ValidName.fileUnder?_eq {name : String} (h : ValidName name) {disk : Disk} {here : Location}
    (directory : disk.node? here = some .directory) :
    disk.fileUnder? here name = disk.files here [name] :=
  Denotes.fileUnder?_eq ((h.toPlainName.denotes_iff directory).2 rfl)
    (h.toPlainName.openable_iff.2 h)

/-! ## Making directories -/

/-- Directories were made, and nothing else was changed. -/
structure Adds (disk after : Disk) : Prop extends Keeps disk after where
  files : ∀ here, after.files here = disk.files here

theorem Adds.refl (disk : Disk) : Adds disk disk := ⟨.refl disk, fun _ => rfl⟩

theorem Adds.trans {disk after later : Disk} (h : Adds disk after) (h' : Adds after later) :
    Adds disk later :=
  ⟨h.toKeeps.trans h'.toKeeps, fun here => (h'.files here).trans (h.files here)⟩

theorem adds_set {disk : Disk} {l : Location} (h : disk.node? l = none) :
    Adds disk (disk.set l .directory) := by
  have ne : l ≠ [] := by
    rintro rfl
    simp [node?] at h
  refine ⟨keeps_set ne _ (.inl rfl), fun here => funext fun names => ?_⟩
  rw [files, files, node?_set disk ne]
  by_cases same : here ++ names = l
  · rw [if_pos same, same, h]
  · rw [if_neg same]

theorem adds_makeDirectory {disk after : Disk} {path : String}
    (h : disk.makeDirectory path = .ok after) : Adds disk after := by
  obtain ⟨last, -, h⟩ := Json.bind_eq_ok_iff.1 h
  split at h
  · cases h
  · obtain ⟨here, -, h⟩ := Json.bind_eq_ok_iff.1 h
    split at h
    · next free =>
      cases h
      exact adds_set free
    · cases h

/-- Making directories, whether it succeeds or fails half way, adds directories only. -/
theorem adds_makeAll (disk : Disk) (paths : List String) : Adds disk (disk.makeAll paths).1 := by
  induction paths generalizing disk with
  | nil => exact .refl disk
  | cons path parents ih =>
    unfold makeAll
    split
    · next made => exact adds_makeDirectory made
    · have above := ih disk
      split
      · next failed => rwa [failed] at above
      · next succeeded =>
        rw [succeeded] at above
        split
        · next made => exact above.trans (adds_makeDirectory made)
        · split <;> exact above
    · split <;> exact .refl disk

end HierarchyAccessors.Disk
