import HierarchyAccessors.Proofs.Grouping
import HierarchyAccessors.Proofs.NumberedNames

/-!
# What a pass adds, group by group

A pass goes through the groups and adds to its output as it goes. Here the same output is written
down as a whole: `named` lists the groups, each with the name that its unit gets, given the names
before it, and `generate_eq` reads units and diagnostics off that list. What is proved about a pass
starts from there.
-/

namespace HierarchyAccessors

/-- The name of a unit whose own name is `name`, after units with the names `taken`. -/
def assignedName (name : String) (taken : List String) : String :=
  if name ∈ taken then freeName name taken else name

theorem assignedName_not_mem (name : String) (taken : List String) :
    assignedName name taken ∉ taken := by
  unfold assignedName
  split
  · exact freeName_not_mem name taken
  · assumption

/-- Only a unit whose name is taken is renamed. -/
theorem assignedName_eq_self_iff {name : String} {taken : List String} :
    assignedName name taken = name ↔ name ∉ taken := by
  constructor
  · intro h
    rw [← h]
    exact assignedName_not_mem name taken
  · exact fun h => if_neg h

namespace OwnerGroup

/-- The groups with the names of their units, after units with the names `taken`. -/
def named (taken : List String) : List OwnerGroup → List (OwnerGroup × String)
  | [] => []
  | group :: groups =>
    let name := assignedName group.owner.unitFileName taken
    (group, name) :: named (taken ++ [name]) groups

/-- The text of the group's unit. -/
def source (group : OwnerGroup) : String :=
  (group.write .empty).text

/-- The diagnostic about the name of a unit, if that is not the owner's own. -/
def renameNotice (owner : NamedType) (name : String) : List Diagnostic :=
  if name = owner.unitFileName then [] else [owner.renamed owner.unitFileName name]

theorem map_fst_named (taken : List String) (groups : List OwnerGroup) :
    (named taken groups).map (·.1) = groups := by
  induction groups generalizing taken with
  | nil => rfl
  | cons group groups ih => simp [named, ih]

/-- The names are distinct, and none of them was in use. -/
theorem nodup_named {taken : List String} (h : taken.Nodup) (groups : List OwnerGroup) :
    (taken ++ (named taken groups).map (·.2)).Nodup := by
  induction groups generalizing taken with
  | nil => simpa [named] using h
  | cons group groups ih =>
    have fresh := assignedName_not_mem group.owner.unitFileName taken
    have step : (taken ++ [assignedName group.owner.unitFileName taken]).Nodup :=
      List.nodup_append.2 ⟨h, List.nodup_singleton _, by grind⟩
    simpa [named] using ih step

theorem renameNotice_eq_nil_iff {owner : NamedType} {name : String} :
    renameNotice owner name = [] ↔ name = owner.unitFileName := by
  unfold renameNotice
  split <;> simp_all

/-- All groups keep their own names just if these are distinct and none of them was in use. -/
theorem forall_mem_named_iff {taken : List String} (h : taken.Nodup) (groups : List OwnerGroup) :
    (∀ e ∈ named taken groups, e.2 = e.1.owner.unitFileName) ↔
      (taken ++ (groups.map (·.owner)).map (·.unitFileName)).Nodup := by
  constructor
  · intro own
    have names : (named taken groups).map (·.2) = (groups.map (·.owner)).map (·.unitFileName) := by
      rw [List.map_congr_left own]
      conv_rhs => rw [← map_fst_named taken groups, List.map_map, List.map_map]
      rfl
    rw [← names]
    exact nodup_named h groups
  · intro distinct
    induction groups generalizing taken with
    | nil => simp [named]
    | cons group groups ih =>
      have free : group.owner.unitFileName ∉ taken := fun used =>
        List.disjoint_of_nodup_append distinct used List.mem_cons_self
      have name : assignedName group.owner.unitFileName taken = group.owner.unitFileName :=
        assignedName_eq_self_iff.2 free
      rw [List.map_cons, List.map_cons, ← List.singleton_append, ← List.append_assoc] at distinct
      rw [named, name, List.forall_mem_cons]
      exact ⟨rfl, ih distinct.of_append_left distinct⟩

theorem named_of_nodup {taken : List String} (h : taken.Nodup) {groups : List OwnerGroup}
    (distinct : (taken ++ (groups.map (·.owner)).map (·.unitFileName)).Nodup) :
    named taken groups = groups.map fun group => (group, group.owner.unitFileName) := by
  have own := (forall_mem_named_iff h groups).2 distinct
  conv_rhs => rw [← map_fst_named taken groups, List.map_map]
  conv_lhs => rw [← List.map_id (named taken groups)]
  exact List.map_congr_left fun e he => Prod.ext rfl (own e he)

theorem nodup_unitFileNames_iff (owners : List NamedType) :
    (Schema.unit.name :: owners.map (·.unitFileName)).Nodup ↔
      (owners.map (·.fullName)).Nodup ∧ Schema.attributeName ∉ owners.map (·.fullName) := by
  have suffixed : Function.Injective (· ++ unitSuffix) :=
    fun _ _ => (String.append_left_inj unitSuffix).1
  have names : Schema.unit.name :: owners.map (·.unitFileName) =
      (Schema.attributeName :: owners.map (·.fullName)).map (· ++ unitSuffix) := by
    rw [List.map_cons, List.map_map]
    rfl
  rw [names, List.nodup_map_iff suffixed, List.nodup_cons, and_comm]

end OwnerGroup

/-! ## A pass as a whole -/

open OwnerGroup

theorem Output.add_eq {output : Output} {group : OwnerGroup} (h : group.fields ≠ []) :
    let name := assignedName group.owner.unitFileName (output.units.map (·.name))
    output.add group =
      ⟨output.units ++ [⟨name, group.source⟩],
        output.diagnostics ++ (group.diagnostics ++ renameNotice group.owner name)⟩ := by
  have unit : group.unit? = some ⟨group.owner.unitFileName, group.source⟩ := by
    simp [OwnerGroup.unit?, h, source]
  simp only [Output.add, unit]
  split
  · next taken =>
    have ne := mt assignedName_eq_self_iff.1 (not_not_intro taken)
    rw [renameNotice, if_neg ne, assignedName, if_pos taken, List.append_assoc]
  · next free =>
    have eq := assignedName_eq_self_iff.2 free
    rw [renameNotice, eq, if_pos rfl, List.append_nil]

theorem foldl_add (output : Output) (groups : List OwnerGroup)
    (h : ∀ group ∈ groups, group.fields ≠ []) :
    let all := named (output.units.map (·.name)) groups
    groups.foldl .add output =
      ⟨output.units ++ all.map fun (group, name) => ⟨name, group.source⟩,
        output.diagnostics ++
          all.flatMap fun (group, name) => group.diagnostics ++ renameNotice group.owner name⟩ := by
  induction groups generalizing output with
  | nil => simp [named]
  | cons group groups ih =>
    obtain ⟨first, rest⟩ := List.forall_mem_cons.1 h
    rw [List.foldl_cons, Output.add_eq first, ih _ rest]
    simp [named]

/-- The groups of a pass, each with the name of its unit. -/
def namedGroups (files : List SourceFile) (facts : Facts) : List (OwnerGroup × String) :=
  named [Schema.unit.name] (ofFields (resolve (markedFields files) facts).fields)

theorem generate_eq (files : List SourceFile) (facts : Facts) :
    generate files facts =
      ⟨Schema.unit :: (namedGroups files facts).map fun (group, name) => ⟨name, group.source⟩,
        (resolve (markedFields files) facts).diagnostics ++
          (namedGroups files facts).flatMap fun (group, name) =>
            group.diagnostics ++ renameNotice group.owner name⟩ :=
  foldl_add ⟨[Schema.unit], _⟩ _ (stablePartition_ofFields _).fields_ne_nil

/-- Where the owners' names are distinct and none is that of the first unit, every unit keeps its
own. -/
theorem generate_of_own_names {files : List SourceFile} {facts : Facts}
    (h : (Schema.unit.name :: ((ofFields (resolve (markedFields files) facts).fields).map
      (·.owner)).map (·.unitFileName)).Nodup) :
    generate files facts =
      ⟨Schema.unit :: (ofFields (resolve (markedFields files) facts).fields).map
          fun group => ⟨group.owner.unitFileName, group.source⟩,
        (resolve (markedFields files) facts).diagnostics ++
          (ofFields (resolve (markedFields files) facts).fields).flatMap (·.diagnostics)⟩ := by
  rw [generate_eq, namedGroups, named_of_nodup (List.nodup_singleton _) h, List.map_map,
    List.flatMap_map]
  simp [renameNotice, Function.comp_def]

theorem names_generate (files : List SourceFile) (facts : Facts) :
    (generate files facts).units.map (·.name) =
      Schema.unit.name :: (namedGroups files facts).map (·.2) := by
  simp [generate_eq]

/-- No two units of a pass have the same name. -/
theorem nodup_names_generate (files : List SourceFile) (facts : Facts) :
    ((generate files facts).units.map (·.name)).Nodup := by
  rw [names_generate]
  exact nodup_named (List.nodup_singleton _) _

/-- A name that ends in the suffix is exchanged for one that does. -/
theorem exists_stem_assignedName (stem : String) (taken : List String) :
    ∃ stem', assignedName (stem ++ unitSuffix) taken = stem' ++ unitSuffix := by
  unfold assignedName
  split
  · exact ⟨_, rfl⟩
  · exact ⟨stem, rfl⟩

theorem exists_stem_of_mem_named {taken : List String} {groups : List OwnerGroup}
    {e : OwnerGroup × String} (h : e ∈ named taken groups) : ∃ stem, e.2 = stem ++ unitSuffix := by
  induction groups generalizing taken with
  | nil => simp [named] at h
  | cons group groups ih =>
    rcases List.mem_cons.1 h with rfl | h
    · exact exists_stem_assignedName _ taken
    · exact ih h

/-- The names of all units end in the suffix of units. -/
theorem exists_stem_of_mem_generate {files : List SourceFile} {facts : Facts} {unit : SourceUnit}
    (h : unit ∈ (generate files facts).units) : ∃ stem, unit.name = stem ++ unitSuffix := by
  rw [generate_eq] at h
  rcases List.mem_cons.1 h with rfl | h
  · exact ⟨"FromHierarchyAttribute", rfl⟩
  · obtain ⟨e, he, rfl⟩ := List.mem_map.1 h
    exact exists_stem_of_mem_named he

/-! ## Kinds of diagnostics -/

/-- A diagnostic of the resolution is about a field that was left out. -/
theorem losesField_of_mem_resolve {fields : List MarkedField} {facts : Facts} {d : Diagnostic}
    (h : d ∈ (resolve fields facts).diagnostics) : d.kind.losesField := by
  obtain ⟨verdict, hv, hd⟩ := List.mem_filterMap.1 h
  obtain ⟨field, -, hv⟩ := List.mem_flatMap.1 hv
  obtain ⟨v, -, rfl⟩ := List.mem_map.1 hv
  unfold Variable.outcome at hd
  split at hd
  · cases hd
    rfl
  · split at hd
    · next e _ =>
      cases hd
      cases e <;> rfl
    · cases hd

theorem kind_of_mem_fallbacks {field : ResolvedField} {owner : NamedType} {d : Diagnostic}
    (h : d ∈ field.fallbacks owner) :
    d.kind = .fallbackIdentifier ∨ d.kind = .nonCanonicalSource := by
  rcases List.mem_append.1 h with h | h
  · split at h
    · exact .inl (List.mem_singleton.1 h ▸ rfl)
    · cases h
  · split at h
    · exact .inr (List.mem_singleton.1 h ▸ rfl)
    · cases h

theorem kind_of_mem_repetition {field : ResolvedField} {owner : NamedType} {taken : List String}
    {d : Diagnostic} (h : d ∈ field.repetition owner taken) : d.kind = .duplicateAccessor := by
  unfold ResolvedField.repetition at h
  split at h
  · exact List.mem_singleton.1 h ▸ rfl
  · cases h

theorem kind_of_mem_diagnosticsAfter {owner : NamedType} {taken : List String}
    {fields : List ResolvedField} {d : Diagnostic} (h : d ∈ diagnosticsAfter owner taken fields) :
    d.kind = .fallbackIdentifier ∨ d.kind = .nonCanonicalSource ∨ d.kind = .duplicateAccessor := by
  induction fields generalizing taken with
  | nil => simp [diagnosticsAfter] at h
  | cons field fields ih =>
    rw [diagnosticsAfter, List.append_assoc, List.mem_append, List.mem_append] at h
    rcases h with h | h | h
    · exact (kind_of_mem_fallbacks h).imp_right .inl
    · exact .inr (.inr (kind_of_mem_repetition h))
    · exact ih h

/-- The diagnostics of a group are of the three kinds that are about an accessor. -/
theorem kind_of_mem_diagnostics {group : OwnerGroup} {d : Diagnostic} (h : d ∈ group.diagnostics) :
    d.kind = .fallbackIdentifier ∨ d.kind = .nonCanonicalSource ∨ d.kind = .duplicateAccessor :=
  kind_of_mem_diagnosticsAfter h

theorem kind_of_mem_renameNotice {owner : NamedType} {name : String} {d : Diagnostic}
    (h : d ∈ renameNotice owner name) : d.kind = .duplicateUnitName := by
  unfold renameNotice at h
  split at h
  · cases h
  · exact List.mem_singleton.1 h ▸ rfl

end HierarchyAccessors
