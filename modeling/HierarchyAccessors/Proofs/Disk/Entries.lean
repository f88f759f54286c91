import HierarchyAccessors.Proofs.Disk.Parts
import HierarchyAccessors.Proofs.Disk.Places

/-!
# The entries that names denote

Inside a directory a name denotes an entry (`Denotes`): that of its last part, in the directory to
which the parts before it lead. Which entry that is depends on the directories of the disk alone, so
that writing and removing files never changes it (`SameDirectories.denotes_iff`).
-/

namespace HierarchyAccessors.Disk

/-! ## Walking to a directory -/

theorem walkNames_append (disk : Disk) (confined : Option Location) (here : Location)
    (names more : List String) :
    disk.walkNames confined here (names ++ more) =
      disk.walkNames confined here names >>= fun there => disk.walkNames confined there more := by
  induction names generalizing here with
  | nil => rfl
  | cons name names ih =>
    simp only [List.cons_append, walkNames]
    split
    · cases step confined here name with
      | error e => rfl
      | ok next =>
        simp only [bind, Except.bind]
        split
        · rfl
        · exact ih next
    · rfl

/-- The names lead to a directory. -/
def LeadsTo (disk : Disk) (here : Location) (names : List String) (there : Location) : Prop :=
  disk.walkNames (some here) here names = .ok there ∧ disk.node? there = some .directory

/-- Parts that are empty or single dots stay in a directory. -/
theorem leadsTo_append_stay {disk : Disk} {here there : Location} {names : List String}
    {name : String} (stays : name = "" ∨ name = ".") :
    disk.LeadsTo here (names ++ [name]) there ↔ disk.LeadsTo here names there := by
  unfold LeadsTo
  rw [walkNames_append]
  constructor
  · rintro ⟨walk, directory⟩
    obtain ⟨before, walked, h⟩ := Json.bind_eq_ok_iff.1 walk
    have same : there = before := by
      rw [walkNames_eq_foldl h, List.foldl_cons, List.foldl_nil, follow, if_pos stays]
    rw [same]
    exact ⟨walked, same ▸ directory⟩
  · rintro ⟨walked, directory⟩
    refine ⟨Json.bind_eq_ok_iff.2 ⟨there, walked, ?_⟩, directory⟩
    simp [walkNames, directory, step, stays, bind, Except.bind]

/-- A slash at the end of a path leads nowhere. -/
theorem leadsTo_append_slash {disk : Disk} {here there : Location} (cs : List Char) :
    disk.LeadsTo here (Path.names (String.ofList ('/' :: cs).reverse)) there ↔
      disk.LeadsTo here (Path.names (String.ofList cs.reverse)) there := by
  rw [List.reverse_cons, Path.names_append_slash, Path.names_ofList List.not_mem_nil]
  exact leadsTo_append_stay (.inl rfl)

/-- What is cut off at the end of a path leads nowhere. -/
theorem leadsTo_trimReversed {disk : Disk} {here there : Location} (cs : List Char)
    (relative : cs.getLast? ≠ some '/') :
    disk.LeadsTo here (Path.names (String.ofList (Path.trimReversed cs).reverse)) there ↔
      disk.LeadsTo here (Path.names (String.ofList cs.reverse)) there := by
  fun_induction Path.trimReversed cs with
  | case1 => exact Iff.rfl
  | case2 => exact absurd rfl relative
  | case3 cs more ih =>
    -- A slash is cut off that is not that of the root.
    cases cs with
    | nil => exact absurd rfl more
    | cons c cs => exact (ih relative).trans (leadsTo_append_slash _).symm
  | case4 cs ih =>
    -- A dot is cut off, and the slash before it is cut off next.
    have dropDot : disk.LeadsTo here (Path.names (String.ofList ('.' :: '/' :: cs).reverse)) there ↔
        disk.LeadsTo here (Path.names (String.ofList cs.reverse)) there := by
      have dot : Path.names (String.ofList ['.']) = ["."] := Path.names_ofList (by decide)
      rw [List.reverse_cons, List.reverse_cons, List.append_assoc, List.singleton_append,
        Path.names_append_slash, dot]
      exact leadsTo_append_stay (.inr rfl)
    exact (ih (by simpa using relative)).trans ((leadsTo_append_slash cs).trans dropDot.symm)
  | case5 cs => exact Iff.rfl

/-! ## The entry of a name -/

/-- The parts of a name that stand for no entry when they are its last. -/
abbrev LeadsElsewhere (last : String) : Prop := last ∈ ["", ".", ".."]

/-- Inside a directory a name denotes the entry of its last part, in the directory to which the
parts before it lead. An absolute name denotes none, and neither does one whose last part leads
elsewhere. -/
inductive Denotes (disk : Disk) (here : Location) (name : String) : Location → Prop
  | entry {before : List String} {last : String} {directory : Location}
    (relative : Path.isAbsolute name = false) (parts : Path.names name = before ++ [last])
    (leads : ¬LeadsElsewhere last) (opens : disk.LeadsTo here before directory) :
    Denotes disk here name (directory ++ [last])

/-- A name denotes one entry at most. -/
theorem Denotes.unique {disk : Disk} {here l l' : Location} {name : String}
    (h : disk.Denotes here name l) (h' : disk.Denotes here name l') : l = l' := by
  obtain ⟨-, parts, -, walk, -⟩ := h
  obtain ⟨-, parts', -, walk', -⟩ := h'
  obtain ⟨rfl, same⟩ := List.append_inj' (parts.symm.trans parts') rfl
  rw [walk] at walk'
  rw [Except.ok.inj walk', same]

theorem ne_of_leads {last : String} (leads : ¬LeadsElsewhere last) :
    last ≠ "" ∧ last ≠ "." ∧ last ≠ ".." := by
  simpa [LeadsElsewhere] using leads

theorem step_eq_of_leads {last : String} (leads : ¬LeadsElsewhere last)
    (confined : Option Location) (here : Location) :
    step confined here last =
      if Path.maxName < last.utf8ByteSize then .error .invalidFilename
      else .ok (here ++ [last]) := by
  obtain ⟨ne_empty, ne_dot, ne_dots⟩ := ne_of_leads leads
  rw [step, if_neg (not_or.2 ⟨ne_empty, ne_dot⟩), if_neg ne_dots]

theorem Denotes.ne_nil {disk : Disk} {here l : Location} {name : String}
    (h : disk.Denotes here name l) : l ≠ [] := by
  cases h
  simp

/-- The names denote one entry. -/
def SameEntry (disk : Disk) (here : Location) (name name' : String) : Prop :=
  ∃ l, disk.Denotes here name l ∧ disk.Denotes here name' l

/-- Names of one entry end in the same part. -/
theorem SameEntry.getLast?_names {disk : Disk} {here : Location} {name name' : String}
    (h : disk.SameEntry here name name') :
    (Path.names name).getLast? = (Path.names name').getLast? := by
  obtain ⟨l, denotes, denotes'⟩ := h
  have ends {name : String} (denotes : disk.Denotes here name l) :
      l.getLast? = (Path.names name).getLast? := by
    obtain ⟨-, parts, -, -⟩ := denotes
    rw [parts, List.getLast?_concat, List.getLast?_concat]
  rw [← ends denotes, ← ends denotes']

/-! ## Disks with the same directories -/

theorem LeadsTo.keeps {disk after : Disk} {here there : Location} {names : List String}
    (h : Keeps disk after) (leads : disk.LeadsTo here names there) :
    after.LeadsTo here names there :=
  ⟨(h.walkNames leads.1 leads.2).2, h.directory there leads.2⟩

theorem Denotes.keeps {disk after : Disk} {here l : Location} {name : String}
    (h : Keeps disk after) (denotes : disk.Denotes here name l) : after.Denotes here name l := by
  obtain ⟨relative, parts, leads, opens⟩ := denotes
  exact .entry relative parts leads (opens.keeps h)

/-- The disks have the same directories, whatever files they have. -/
structure SameDirectories (disk after : Disk) : Prop where
  keeps : Keeps disk after
  kept : Keeps after disk

namespace SameDirectories

variable {disk after later : Disk}

theorem refl (disk : Disk) : SameDirectories disk disk := ⟨.refl disk, .refl disk⟩

theorem trans (h : SameDirectories disk after) (h' : SameDirectories after later) :
    SameDirectories disk later :=
  ⟨h.keeps.trans h'.keeps, h'.kept.trans h.kept⟩

/-- Names denote the same entries. -/
theorem denotes_iff (h : SameDirectories disk after) {here l : Location} {name : String} :
    after.Denotes here name l ↔ disk.Denotes here name l :=
  ⟨.keeps h.kept, .keeps h.keeps⟩

theorem sameEntry_iff (h : SameDirectories disk after) {here : Location} {name name' : String} :
    after.SameEntry here name name' ↔ disk.SameEntry here name name' := by
  simp only [SameEntry, h.denotes_iff]

end SameDirectories

theorem sameDirectories_set {disk : Disk} {l : Location} (ne : l ≠ []) (bytes : List UInt8)
    (h : disk.node? l ≠ some .directory) : SameDirectories disk (disk.set l (.file bytes)) := by
  refine ⟨keeps_set ne _ (.inr h), rfl, ?_⟩
  intro l' directory
  rw [node?_set disk ne] at directory
  split at directory
  · cases directory
  · exact directory

theorem sameDirectories_erase {disk : Disk} {l : Location} (ne : l ≠ [])
    (h : disk.node? l ≠ some .directory) : SameDirectories disk (disk.erase l) := by
  refine ⟨keeps_erase ne h, rfl, ?_⟩
  intro l' directory
  rw [node?_erase disk ne] at directory
  split at directory
  · cases directory
  · exact directory

end HierarchyAccessors.Disk
