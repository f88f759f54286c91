import HierarchyAccessors.Proofs.Disk.Entries

/-!
# What operations do to entries

What can be read under a name is the file at the entry that the name denotes
(`fileUnder?_eq_some_iff`), writing puts a file there (`writeText_eq_ok_iff`), and removing takes it
away (`removeFile_eq_ok`). A file is removed from the directory that the parent of the name leads
to, and that is the directory of the entry, though the parent may be spelled in another way than the
parts of the name (`openParent_eq_ok_iff`).
-/

namespace HierarchyAccessors.Disk

/-! ## Names that can be opened -/

theorem checkPath_eq_ok_iff {path : String} : checkPath path = .ok () ↔
    '\x00' ∉ path.toList ∧ path ≠ "" ∧ path.utf8ByteSize < Path.maxLength := by
  unfold checkPath
  simp only [List.contains_iff_mem]
  split_ifs with zero empty long
  · simp [zero]
  · simp [empty]
  · simp [Nat.not_lt.2 long]
  · simp [zero, empty, Nat.not_le.1 long]

/-- A name under which a file can be opened, if there is one. -/
structure Openable (name : String) : Prop where
  allowed : checkPath name = .ok ()
  short : ∀ last ∈ (Path.names name).getLast?, last.utf8ByteSize ≤ Path.maxName

theorem openable_iff_of_names {name last : String} {before : List String}
    (parts : Path.names name = before ++ [last]) :
    Openable name ↔ checkPath name = .ok () ∧ last.utf8ByteSize ≤ Path.maxName := by
  constructor
  · intro h
    exact ⟨h.allowed, h.short last (by simp [parts])⟩
  · rintro ⟨allowed, short⟩
    exact ⟨allowed, by simpa [parts] using short⟩

/-- The last part of a name that can be opened can be the name of a file. -/
theorem Openable.last {name last : String} {before : List String} (h : Openable name)
    (parts : Path.names name = before ++ [last]) :
    '\x00' ∉ last.toList ∧ ¬Path.maxName < last.utf8ByteSize := by
  obtain ⟨allowed, short⟩ := (openable_iff_of_names parts).1 h
  refine ⟨?_, Nat.not_lt.2 short⟩
  intro zero
  exact (checkPath_eq_ok_iff.1 allowed).1 ((Path.suffix_of_names parts).subset zero)

/-- The parent of a name that can be opened can be opened. -/
theorem Openable.parent {name : String} (h : Openable name) (filled : Path.parent name ≠ "") :
    checkPath (Path.parent name) = .ok () := by
  obtain ⟨noZero, -, short⟩ := checkPath_eq_ok_iff.1 h.allowed
  obtain ⟨rest, eq⟩ := Path.parent_prefix name
  have whole : name = Path.parent name ++ String.ofList rest := by
    rw [← String.toList_inj, String.toList_append, String.toList_ofList, eq]
  have size := congrArg String.utf8ByteSize whole
  rw [String.utf8ByteSize_append] at size
  refine checkPath_eq_ok_iff.2 ⟨?_, filled, by omega⟩
  intro zero
  exact noZero ((Path.parent_prefix name).subset zero)

/-! ## Reading -/

/-- The bytes of the file that a name leads to. -/
def fileUnder? (disk : Disk) (here : Location) (name : String) : Option (List UInt8) :=
  (disk.locate (some here) name >>= disk.bytesAt).toOption

theorem isFile_eq (disk : Disk) (here : Location) (name : String) :
    disk.isFile here name = (disk.fileUnder? here name).isSome := by
  unfold isFile fileUnder?
  cases disk.locate (some here) name <;> rfl

/-- Inside a directory, a walk begins there unless the path is absolute. -/
theorem start_some_eq_ok_iff {disk : Disk} {here origin : Location} {path : String}
    {names : List String} : disk.start (some here) path = .ok (origin, names) ↔
      checkPath path = .ok () ∧ Path.isAbsolute path = false ∧ origin = here ∧
        names = Path.names path := by
  unfold start
  rw [Json.bind_eq_ok_iff]
  constructor
  · rintro ⟨⟨⟩, allowed, h⟩
    split at h
    · cases h
    · next relative =>
      cases h
      exact ⟨allowed, Bool.not_eq_true _ ▸ relative, rfl, rfl⟩
  · rintro ⟨allowed, relative, rfl, rfl⟩
    refine ⟨(), allowed, ?_⟩
    rw [relative]
    rfl

theorem locate_some_eq_ok_iff {disk : Disk} {here there : Location} {path : String} :
    disk.locate (some here) path = .ok there ↔
      checkPath path = .ok () ∧ Path.isAbsolute path = false ∧
        disk.walkNames (some here) here (Path.names path) = .ok there := by
  unfold locate
  rw [Json.bind_eq_ok_iff]
  constructor
  · rintro ⟨⟨origin, names⟩, begins, walk⟩
    obtain ⟨allowed, relative, originEq, namesEq⟩ := start_some_eq_ok_iff.1 begins
    rw [originEq, namesEq] at walk
    exact ⟨allowed, relative, walk⟩
  · rintro ⟨allowed, relative, walk⟩
    exact ⟨(here, Path.names path), start_some_eq_ok_iff.2 ⟨allowed, relative, rfl, rfl⟩, walk⟩

/-- Reached from a directory through directories. -/
inductive Below (disk : Disk) (here : Location) : Location → Prop
  | here : Below disk here here
  | entry {there : Location} (name : String) (below : Below disk here there)
    (directory : disk.node? there = some .directory) : Below disk here (there ++ [name])

/-- A confined walk leads below the directory it is confined to. -/
theorem below_of_walkNames {disk : Disk} {here origin there : Location} {names : List String}
    (below : disk.Below here origin) (walk : disk.walkNames (some here) origin names = .ok there) :
    disk.Below here there := by
  induction names generalizing origin with
  | nil =>
    cases walk
    exact below
  | cons name names ih =>
    unfold walkNames at walk
    split at walk
    · next directory =>
      obtain ⟨next, hnext, walk⟩ := Json.bind_eq_ok_iff.1 walk
      split at walk
      · cases walk
      refine ih ?_ walk
      unfold step at hnext
      split_ifs at hnext with stays up atTop
      · cases hnext
        exact below
      · -- One directory up from below is still below, since the walk is not at the top.
        cases hnext
        cases below with
        | here => exact absurd rfl atTop
        | entry name below _ => rwa [List.dropLast_concat]
      · cases hnext
        exact .entry name below directory
    · cases walk

/-- The last step of a walk to a file is by a name that stands for an entry. -/
theorem denotes_of_walkNames {disk : Disk} {here l : Location} {name last : String}
    {before : List String} {bytes : List UInt8} (relative : Path.isAbsolute name = false)
    (parts : Path.names name = before ++ [last])
    (walk : disk.walkNames (some here) here (before ++ [last]) = .ok l)
    (file : disk.node? l = some (.file bytes)) :
    disk.Denotes here name l ∧ last.utf8ByteSize ≤ Path.maxName := by
  rw [walkNames_append] at walk
  obtain ⟨directory, walked, h⟩ := Json.bind_eq_ok_iff.1 walk
  unfold walkNames at h
  split at h
  · next isDirectory =>
    obtain ⟨next, hnext, h⟩ := Json.bind_eq_ok_iff.1 h
    split at h
    · cases h
    cases h
    unfold step at hnext
    split_ifs at hnext with stays up atTop long
    · cases hnext
      rw [isDirectory] at file
      cases file
    · cases hnext
      cases below_of_walkNames .here walked with
      | here => exact absurd rfl atTop
      | entry name _ above =>
        rw [List.dropLast_concat, above] at file
        cases file
    · cases hnext
      have leads : ¬LeadsElsewhere last := by
        simpa [LeadsElsewhere] using ⟨(not_or.1 stays).1, (not_or.1 stays).2, up⟩
      exact ⟨.entry relative parts leads ⟨walked, isDirectory⟩, Nat.not_lt.1 long⟩
  · cases h

theorem fileUnder?_eq_some_iff {disk : Disk} {here : Location} {name : String}
    {bytes : List UInt8} : disk.fileUnder? here name = some bytes ↔
      Openable name ∧ ∃ l, disk.Denotes here name l ∧ disk.node? l = some (.file bytes) := by
  have bytesAt_iff (l : Location) :
      disk.bytesAt l = .ok bytes ↔ disk.node? l = some (.file bytes) := by
    unfold bytesAt
    split <;> simp_all
  have toOption_iff (result : Except DiskError (List UInt8)) :
      result.toOption = some bytes ↔ result = .ok bytes := by
    cases result <;> simp [Except.toOption]
  rw [fileUnder?, toOption_iff, Json.bind_eq_ok_iff]
  constructor
  · rintro ⟨l, located, read⟩
    obtain ⟨allowed, relative, walk⟩ := locate_some_eq_ok_iff.1 located
    obtain ⟨before, last, parts⟩ := Path.names_eq_concat name
    have file := (bytesAt_iff l).1 read
    rw [parts] at walk
    obtain ⟨denotes, short⟩ := denotes_of_walkNames relative parts walk file
    exact ⟨(openable_iff_of_names parts).2 ⟨allowed, short⟩, l, denotes, file⟩
  · rintro ⟨openable, l, denotes, file⟩
    cases denotes with
    | @entry before last directory relative parts leads opens =>
      have short := (openable.last parts).2
      have walk : disk.walkNames (some here) here (Path.names name) =
          .ok (directory ++ [last]) := by
        rw [parts, walkNames_append, opens.1]
        simp [walkNames, opens.2, step_eq_of_leads leads, short, file, bind, Except.bind]
      exact ⟨_, locate_some_eq_ok_iff.2 ⟨openable.allowed, relative, walk⟩, (bytesAt_iff _).2 file⟩

/-- Under a name whose entry is as it was, the same is read. -/
theorem SameDirectories.fileUnder?_eq {disk after : Disk} {here : Location} {name : String}
    (h : SameDirectories disk after)
    (unchanged : ∀ l, disk.Denotes here name l → after.node? l = disk.node? l) :
    after.fileUnder? here name = disk.fileUnder? here name := by
  apply Option.ext
  intro bytes
  rw [fileUnder?_eq_some_iff, fileUnder?_eq_some_iff]
  apply and_congr_right
  intro _
  apply exists_congr
  intro l
  rw [h.denotes_iff]
  apply and_congr_right
  intro denotes
  rw [unchanged l denotes]

/-! ## Writing -/

/-- A walk that ends in an empty part leads to a directory. -/
theorem walkNames_append_empty_eq_ok_iff {disk : Disk} {here there : Location}
    {names : List String} : disk.walkNames (some here) here (names ++ [""]) = .ok there ↔
      disk.LeadsTo here names there := by
  constructor
  · intro walk
    have directory : disk.node? there = some .directory := by
      rw [walkNames_append] at walk
      obtain ⟨before, -, h⟩ := Json.bind_eq_ok_iff.1 walk
      unfold walkNames at h
      split at h
      · next directory =>
        simp [step, directory, walkNames, bind, Except.bind] at h
        exact h ▸ directory
      · cases h
    exact (leadsTo_append_stay (.inl rfl)).1 ⟨walk, directory⟩
  · intro leads
    exact ((leadsTo_append_stay (.inl rfl)).2 leads).1

/-- Where no empty part is dropped at the end, the last part is not empty. -/
theorem exists_eq_concat_of_length {names : List String} {last : String}
    (isLast : (names.reverse.dropWhile (· = "")).reverse.getLast? = some last)
    (whole : (names.reverse.dropWhile (· = "")).length = names.length) :
    last ≠ "" ∧ ∃ before, names = before ++ [last] := by
  have kept := (List.dropWhile_suffix (· = "")).eq_of_length (whole.trans List.length_reverse.symm)
  rw [kept, List.reverse_reverse] at isLast
  obtain ⟨before, parts⟩ := List.getLast?_eq_some_iff.1 isLast
  refine ⟨?_, before, parts⟩
  rintro rfl
  rw [parts, List.reverse_append, List.reverse_singleton, List.singleton_append,
    List.dropWhile_cons_of_pos (by simp)] at kept
  have shorter := (List.dropWhile_suffix (l := before.reverse) (· = "")).length_le
  rw [kept, List.length_cons] at shorter
  exact Nat.not_succ_le_self _ shorter

/-- Where a name would have its entry, if it is looked for in a directory. -/
theorem locateLast_eq_ok_iff {disk : Disk} {here directory : Location} {name last : String} :
    disk.locateLast (some here) name = .ok (some (directory, last, false)) ↔
      checkPath name = .ok () ∧ Path.isAbsolute name = false ∧ ¬LeadsElsewhere last ∧
        ∃ before, Path.names name = before ++ [last] ∧ disk.LeadsTo here before directory := by
  unfold locateLast
  rw [Json.bind_eq_ok_iff]
  constructor
  · rintro ⟨⟨origin, names⟩, begins, h⟩
    obtain ⟨allowed, relative, rfl, rfl⟩ := start_some_eq_ok_iff.1 begins
    dsimp only at h
    split at h
    · obtain ⟨there, -, h⟩ := Json.bind_eq_ok_iff.1 h
      cases h
    · next found isLast =>
      split at h
      · obtain ⟨there, -, h⟩ := Json.bind_eq_ok_iff.1 h
        cases h
      · next leads =>
        obtain ⟨there, walk, h⟩ := Json.bind_eq_ok_iff.1 h
        simp only [pure, Except.pure, Except.ok.injEq, Option.some.injEq, Prod.mk.injEq,
          decide_eq_false_iff_not, Decidable.not_not, List.length_reverse] at h
        obtain ⟨rfl, rfl, whole⟩ := h
        obtain ⟨filled, before, parts⟩ := exists_eq_concat_of_length isLast whole
        have kept : ((Path.names name).reverse.dropWhile (· = "")).reverse.dropLast = before := by
          simp [parts, filled]
        rw [kept] at walk
        refine ⟨allowed, relative, ?_, before, parts, walkNames_append_empty_eq_ok_iff.1 walk⟩
        simpa [LeadsElsewhere, filled] using leads
  · rintro ⟨allowed, relative, leads, before, parts, opens⟩
    refine ⟨(here, Path.names name), start_some_eq_ok_iff.2 ⟨allowed, relative, rfl, rfl⟩, ?_⟩
    simp [parts, ne_of_leads leads, walkNames_append_empty_eq_ok_iff.2 opens, bind, Except.bind,
      pure, Except.pure]

theorem writeText_eq_ok_iff {disk after : Disk} {here : Location} {name text : String} :
    disk.writeText here name text = .ok after ↔
      Openable name ∧ ∃ l, disk.Denotes here name l ∧ disk.node? l ≠ some .directory ∧
        after = disk.set l (.file (bytesOf text)) := by
  unfold writeText
  rw [Json.bind_eq_ok_iff]
  constructor
  · rintro ⟨found, located, h⟩
    split at h
    · cases h
    · cases h
    · next directory last =>
      obtain ⟨allowed, relative, leads, before, parts, opens⟩ := locateLast_eq_ok_iff.1 located
      obtain ⟨l, hl, h⟩ := Json.bind_eq_ok_iff.1 h
      rw [step_eq_of_leads leads] at hl
      split at hl
      · cases hl
      next short =>
      cases hl
      split at h
      · cases h
      next notDirectory =>
      cases h
      have openable := (openable_iff_of_names parts).2 ⟨allowed, Nat.not_lt.1 short⟩
      exact ⟨openable, _, .entry relative parts leads opens, notDirectory, rfl⟩
  · rintro ⟨openable, l, denotes, notDirectory, rfl⟩
    cases denotes with
    | @entry before last directory relative parts leads opens =>
      have located := locateLast_eq_ok_iff.2
        ⟨openable.allowed, relative, leads, before, parts, opens⟩
      refine ⟨_, located, ?_⟩
      simp only [step_eq_of_leads leads, if_neg (openable.last parts).2, bind, Except.bind]
      rfl

/-! ## Removing -/

/-- The directory in which a name is looked up when its entry is removed. -/
def openParent (disk : Disk) (here : Location) (name : String) : Except DiskError Location :=
  if Path.parent name = "" then pure here else disk.openDirectory (some here) (Path.parent name)

theorem openParent_eq_ok_iff {disk : Disk} {here there : Location} {name last : String}
    {before : List String} (directory : disk.node? here = some .directory)
    (relative : Path.isAbsolute name = false) (parts : Path.names name = before ++ [last])
    (leads : ¬LeadsElsewhere last) :
    disk.openParent here name = .ok there ↔
      (Path.parent name = "" ∨ checkPath (Path.parent name) = .ok ()) ∧
        disk.LeadsTo here before there := by
  obtain ⟨ne_empty, ne_dot, -⟩ := ne_of_leads leads
  rcases Path.parent_cases parts ne_empty ne_dot with
    ⟨rfl, empty, -⟩ | ⟨cs, rfl, filled, spelled, kind⟩
  · rw [openParent, if_pos empty]
    constructor
    · rintro ⟨⟩
      exact ⟨.inl empty, rfl, directory⟩
    · rintro ⟨-, walk, -⟩
      exact walk
  · have parentRelative := kind.trans relative
    have notSlash : ('/' :: cs.reverse).getLast? ≠ some '/' := by
      intro first
      rw [spelled, Path.isAbsolute, String.toList_ofList, List.head?_reverse,
        Path.getLast?_trimReversed, first] at parentRelative
      simp at parentRelative
    have same : disk.LeadsTo here (Path.names (Path.parent name)) there ↔
        disk.LeadsTo here (Path.names (String.ofList cs)) there := by
      rw [spelled]
      refine (leadsTo_trimReversed _ notSlash).trans ((leadsTo_append_slash _).trans ?_)
      rw [List.reverse_reverse]
    rw [openParent, if_neg filled, openDirectory_eq_ok_iff, locate_some_eq_ok_iff, ← same]
    constructor
    · rintro ⟨⟨allowed, -, walk⟩, isDirectory⟩
      exact ⟨.inr allowed, walk, isDirectory⟩
    · rintro ⟨allowed, walk, isDirectory⟩
      exact ⟨⟨allowed.resolve_left filled, parentRelative, walk⟩, isDirectory⟩

/-- Only the parents of paths that are not absolute are opened. -/
theorem isAbsolute_of_openParent {disk : Disk} {here there : Location} {name last : String}
    {before : List String} (parts : Path.names name = before ++ [last])
    (leads : ¬LeadsElsewhere last) (h : disk.openParent here name = .ok there) :
    Path.isAbsolute name = false := by
  obtain ⟨ne_empty, ne_dot, -⟩ := ne_of_leads leads
  rcases Path.parent_cases parts ne_empty ne_dot with ⟨-, -, relative⟩ | ⟨cs, -, filled, -, kind⟩
  · exact relative
  · rw [openParent, if_neg filled, openDirectory_eq_ok_iff, locate_some_eq_ok_iff] at h
    obtain ⟨⟨-, parentRelative, -⟩, -⟩ := h
    exact kind.symm.trans parentRelative

/-- Removing by a name whose last part stands for an entry. -/
theorem removeFile_eq {disk : Disk} {here : Location} {name last : String} {before : List String}
    (parts : Path.names name = before ++ [last]) (leads : ¬LeadsElsewhere last) :
    disk.removeFile here name = disk.openParent here name >>= fun directory =>
      if last.toList.contains '\x00' then .error .invalidInput
      else if Path.maxName < last.utf8ByteSize then .error .invalidFilename
      else match disk.node? (directory ++ [last]) with
        | none => .error .notFound
        | some .directory => .error .isADirectory
        | some (.file _) => .ok (disk.erase (directory ++ [last])) := by
  have found (directory : Location) :
      (if last.toList.contains '\x00' then Except.error DiskError.invalidInput
        else step (some here) directory last >>= fun place =>
          match disk.node? place with
          | none => .error .notFound
          | some .directory => .error .isADirectory
          | some (.file _) => .ok (disk.erase place)) =
      if last.toList.contains '\x00' then .error .invalidInput
      else if Path.maxName < last.utf8ByteSize then .error .invalidFilename
      else match disk.node? (directory ++ [last]) with
        | none => .error .notFound
        | some .directory => .error .isADirectory
        | some (.file _) => .ok (disk.erase (directory ++ [last])) := by
    rw [step_eq_of_leads leads]
    by_cases long : Path.maxName < last.utf8ByteSize
    · rw [if_pos long, if_pos long]
      rfl
    · rw [if_neg long, if_neg long]
      rfl
  unfold removeFile openParent
  simp only [parts, List.getLast?_concat, Option.getD_some, if_neg leads]
  by_cases empty : Path.parent name = ""
  · simp only [if_pos empty]
    exact found here
  · simp only [if_neg empty]
    exact congrArg (disk.openDirectory (some here) (Path.parent name) >>= ·) (funext found)

/-- A file that is removed stood at the entry of the name. -/
theorem removeFile_eq_ok {disk after : Disk} {here : Location} {name : String}
    (directory : disk.node? here = some .directory) (h : disk.removeFile here name = .ok after) :
    ∃ l bytes, disk.Denotes here name l ∧ disk.node? l = some (.file bytes) ∧
      after = disk.erase l := by
  obtain ⟨before, last, parts⟩ := Path.names_eq_concat name
  by_cases leads : LeadsElsewhere last
  · unfold removeFile at h
    rw [parts, List.getLast?_concat, Option.getD_some, if_pos leads] at h
    obtain ⟨_, -, h⟩ := Json.bind_eq_ok_iff.1 h
    cases h
  · rw [removeFile_eq parts leads] at h
    obtain ⟨there, opened, h⟩ := Json.bind_eq_ok_iff.1 h
    split_ifs at h with zero long
    split at h
    · cases h
    · cases h
    · next bytes file =>
      cases h
      have relative := isAbsolute_of_openParent parts leads opened
      have opens := ((openParent_eq_ok_iff directory relative parts leads).1 opened).2
      exact ⟨there ++ [last], bytes, .entry relative parts leads opens, file, rfl⟩

/-- The parent of a name that denotes an entry is opened, unless its text is refused. -/
theorem openParent_of_leadsTo {disk : Disk} {here there : Location} {name last : String}
    {before : List String} (directory : disk.node? here = some .directory)
    (relative : Path.isAbsolute name = false) (parts : Path.names name = before ++ [last])
    (leads : ¬LeadsElsewhere last) (opens : disk.LeadsTo here before there) :
    disk.openParent here name = .ok there ∨
      Path.parent name ≠ "" ∧ ∃ e, checkPath (Path.parent name) = .error e ∧
        disk.openParent here name = .error e := by
  by_cases empty : Path.parent name = ""
  · exact .inl ((openParent_eq_ok_iff directory relative parts leads).2 ⟨.inl empty, opens⟩)
  · cases allowed : checkPath (Path.parent name) with
    | ok =>
      exact .inl ((openParent_eq_ok_iff directory relative parts leads).2 ⟨.inr allowed, opens⟩)
    | error e =>
      refine .inr ⟨empty, e, rfl, ?_⟩
      rw [openParent, if_neg empty, openDirectory, locate, start, allowed]
      rfl

/-- Where no file is found to be removed, there is none. -/
theorem removeFile_eq_notFound {disk : Disk} {here l : Location} {name : String}
    (directory : disk.node? here = some .directory) (denotes : disk.Denotes here name l)
    (h : disk.removeFile here name = .error .notFound) : disk.node? l = none := by
  obtain ⟨relative, parts, leads, opens⟩ := denotes
  rw [removeFile_eq parts leads] at h
  rcases openParent_of_leadsTo directory relative parts leads opens with
    opened | ⟨filled, e, refused, failed⟩
  · simp only [opened, bind, Except.bind] at h
    split_ifs at h with zero long
    · cases h
    · cases h
    · split at h
      · assumption
      · cases h
      · cases h
  · rw [failed] at h
    cases h
    -- No path but the empty one is refused as missing.
    unfold checkPath at refused
    split_ifs at refused <;> cases refused

/-- By a name that can be opened a file is removed, unless it is missing or a directory stands in
its place. -/
theorem removeFile_of_openable {disk : Disk} {here l : Location} {name : String}
    (directory : disk.node? here = some .directory) (openable : Openable name)
    (denotes : disk.Denotes here name l) (free : disk.node? l ≠ some .directory) :
    disk.removeFile here name = .ok (disk.erase l) ∨
      disk.removeFile here name = .error .notFound := by
  cases denotes with
  | @entry before last there relative parts leads opens => ?_
  rw [removeFile_eq parts leads]
  rcases openParent_of_leadsTo directory relative parts leads opens with
    opened | ⟨filled, e, refused, -⟩
  · obtain ⟨noZero, short⟩ := openable.last parts
    simp only [opened, bind, Except.bind, List.contains_iff_mem, if_neg noZero, if_neg short]
    split
    · exact .inr rfl
    · exact absurd ‹_› free
    · exact .inl rfl
  · rw [openable.parent filled] at refused
    cases refused

end HierarchyAccessors.Disk
