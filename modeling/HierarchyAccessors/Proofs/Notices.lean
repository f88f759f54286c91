import HierarchyAccessors.Proofs.CleanPass
import Mathlib.Data.Finset.Card
import Mathlib.Data.Finset.Dedup

/-!
# What is noted about the accessors of a unit

While the accessors of a group are written, what degrades is noted field by field. `notices` says of
a field and the fields before it what is to be noted: three conditions, each with a diagnostic of
its own, of which only the last depends on the fields before.

**Theorem (`add_notes`).** Adding a group to an output keeps the diagnostics that are there and puts
those of the group's fields behind them, in order. As many of them are about a repeated name as
there are fields more than names.

The pass carries the names along that it has given; `diagnostics_eq` replaces them by the fields
that come before.
-/

namespace HierarchyAccessors

/-- Every other value than the three flags has no lookup of its own. -/
theorem RetrievalSource.scope?_isNone_iff {source : RetrievalSource} :
    source.scope?.isNone = true ↔ ¬(source.bits = 1 ∨ source.bits = 2 ∨ source.bits = 4) := by
  unfold scope?
  split_ifs <;> simp_all

namespace ResolvedField

/-- What is to be noted about the accessor of a field that comes after the fields `earlier`. -/
def notices (field : ResolvedField) (owner : NamedType) (earlier : List ResolvedField) :
    List Diagnostic :=
  (if field.fieldName.toList.any isLowerLetter then [] else
    [{ kind := .fallbackIdentifier
       owner := some owner.fullName
       field := some field.fieldName
       message := "field name has no lowercase letter; accessor named `NoLetterCanUppercase`" }]) ++
  (if field.source.bits = 1 ∨ field.source.bits = 2 ∨ field.source.bits = 4 then [] else
    [{ kind := .nonCanonicalSource
       owner := some owner.fullName
       field := some field.fieldName
       message :=
        s!"retrieval source {field.source.bits.toInt} is not a single flag; using the self lookup"
    }]) ++
  (if ∃ other ∈ earlier, other.propertyName = field.propertyName then
    [{ kind := .duplicateAccessor
       owner := some owner.fullName
       field := some field.fieldName
       message := s!"accessor `{field.propertyName}` is generated more than once" }]
  else [])

/-! ## One field -/

/-- The message about a field without a lowercase letter names the fallback. -/
theorem fallbackMessage_eq {field : ResolvedField}
    (h : (AccessorName.ofField field.fieldName).isFallback = true) :
    s!"field name has no lowercase letter; accessor named `{field.propertyName}`" =
      "field name has no lowercase letter; accessor named `NoLetterCanUppercase`" := by
  unfold propertyName
  cases name : AccessorName.ofField field.fieldName with
  | derived name' =>
    rw [name] at h
    cases h
  | fallback => decide

/-- The notices in terms of the names that were given before. -/
theorem notices_eq {field : ResolvedField} {owner : NamedType} {earlier : List ResolvedField}
    {taken : List String}
    (h : ∀ name, name ∈ taken ↔ ∃ other ∈ earlier, other.propertyName = name) :
    field.notices owner earlier = field.fallbacks owner ++ field.repetition owner taken := by
  have letters : (AccessorName.ofField field.fieldName).isFallback = true ↔
      ¬field.fieldName.toList.any isLowerLetter = true := by
    rw [List.any_eq_true, ← isFallback_ofField, Bool.not_eq_false]
  unfold notices fallbacks repetition diagnostic
  congr 1
  · congr 1
    · by_cases fallback : (AccessorName.ofField field.fieldName).isFallback = true
      · rw [if_neg (letters.1 fallback), if_pos fallback, fallbackMessage_eq fallback]
      · rw [if_pos (not_not.1 (mt letters.2 fallback)), if_neg fallback]
    · by_cases none : field.source.scope?.isNone = true
      · rw [if_neg (RetrievalSource.scope?_isNone_iff.1 none), if_pos none]
      · rw [if_pos (not_not.1 (mt RetrievalSource.scope?_isNone_iff.2 none)), if_neg none]
  · simp only [h]

/-- A notice about a repeated name is given just if an earlier accessor has the name. -/
theorem length_filter_notices (field : ResolvedField) (owner : NamedType)
    (earlier : List ResolvedField) :
    ((field.notices owner earlier).filter (·.kind = .duplicateAccessor)).length =
      if field.propertyName ∈ earlier.map (·.propertyName) then 1 else 0 := by
  unfold notices
  simp only [List.filter_append, List.length_append, List.mem_map]
  split_ifs <;> rfl

end ResolvedField

namespace OwnerGroup

/-! ## All fields -/

/-- What is to be noted about the accessors of the fields, in order. -/
def noticesOf (owner : NamedType) (fields : List ResolvedField) : List Diagnostic :=
  fields.zipIdx.flatMap fun (field, i) => field.notices owner (fields.take i)

theorem noticesOf_append_singleton (owner : NamedType) (fields : List ResolvedField)
    (field : ResolvedField) :
    noticesOf owner (fields ++ [field]) = noticesOf owner fields ++ field.notices owner fields := by
  unfold noticesOf
  rw [List.zipIdx_append, List.flatMap_append]
  congr 1
  · refine List.flatMap_congr fun (other, i) he => ?_
    have before : i ≤ fields.length := (List.snd_lt_of_mem_zipIdx he).le
    simp only [List.take_append_of_le_length before]
  · simp

/-- The fields of a group take over from those before them. -/
theorem diagnosticsAfter_append_singleton (owner : NamedType) (taken : List String)
    (fields : List ResolvedField) (field : ResolvedField) :
    diagnosticsAfter owner taken (fields ++ [field]) =
      diagnosticsAfter owner taken fields ++ (field.fallbacks owner ++
        field.repetition owner ((fields.map (·.propertyName)).reverse ++ taken)) := by
  induction fields generalizing taken with
  | nil => simp [diagnosticsAfter]
  | cons first fields ih =>
    rw [List.cons_append, diagnosticsAfter, ih, diagnosticsAfter]
    simp

theorem diagnostics_eq (group : OwnerGroup) :
    group.diagnostics = noticesOf group.owner group.fields := by
  unfold diagnostics
  induction group.fields using List.reverseRecOn with
  | nil => rfl
  | append_singleton fields field ih =>
    have names (name : String) : name ∈ (fields.map (·.propertyName)).reverse ++ [] ↔
        ∃ other ∈ fields, other.propertyName = name := by
      simp
    rw [diagnosticsAfter_append_singleton, ih, noticesOf_append_singleton,
      ResolvedField.notices_eq names]

/-- Every field either has a name of its own or is noted for the name that it repeats. -/
theorem length_filter_noticesOf (owner : NamedType) (fields : List ResolvedField) :
    ((noticesOf owner fields).filter (·.kind = .duplicateAccessor)).length +
      (fields.map (·.propertyName)).toFinset.card = fields.length := by
  induction fields using List.reverseRecOn with
  | nil => rfl
  | append_singleton fields field ih =>
    rw [noticesOf_append_singleton, List.filter_append, List.length_append,
      ResolvedField.length_filter_notices, List.map_append, List.toFinset_append,
      List.length_append, ← ih]
    by_cases known : field.propertyName ∈ fields.map (·.propertyName)
    · have same : (fields.map (·.propertyName)).toFinset ∪
          ([field].map (·.propertyName)).toFinset = (fields.map (·.propertyName)).toFinset := by
        simpa using known
      rw [if_pos known, same, List.length_singleton]
      omega
    · have more : ((fields.map (·.propertyName)).toFinset ∪
          ([field].map (·.propertyName)).toFinset).card =
            (fields.map (·.propertyName)).toFinset.card + 1 := by
        rw [Finset.card_union_of_disjoint]
        · rfl
        · simpa using known
      rw [if_neg known, more, List.length_singleton]
      omega

theorem unit?_eq_none_iff {group : OwnerGroup} : group.unit? = none ↔ group.fields = [] := by
  simp [unit?]

/-- **What is noted about a group.** The diagnostics that are there are kept. Behind them come those
about the group's fields, field by field, each with the full name of the group's owner: whether the
fallback name is used, whether the source is no single flag, and whether an earlier accessor of the
group has the same name. What follows is at most about the name of the unit, and nothing follows
where that name is free. The fields that repeat a name and the names together are as many as the
fields. A group without fields adds nothing and has no unit. -/
theorem add_notes (output : Output) (group : OwnerGroup) :
    let noted := noticesOf group.owner group.fields
    group.diagnostics = noted ∧
    (∃ later, (output.add group).diagnostics = output.diagnostics ++ noted ++ later ∧
      (∀ d ∈ later, d.kind = .duplicateUnitName) ∧
      (group.owner.unitFileName ∉ output.units.map (·.name) → later = [])) ∧
    (noted.filter (·.kind = .duplicateAccessor)).length +
      (group.fields.map (·.propertyName)).toFinset.card = group.fields.length ∧
    (group.unit? = none ↔ group.fields = []) ∧
    (group.fields = [] → noted = [] ∧ output.add group = output) := by
  intro noted
  have empty (h : group.fields = []) : noted = [] ∧ output.add group = output := by
    have unit : group.unit? = none := unit?_eq_none_iff.2 h
    refine ⟨?_, ?_⟩
    · simp only [noted, h]
      rfl
    · simp only [Output.add, unit]
  refine ⟨diagnostics_eq group, ?_, length_filter_noticesOf _ _, unit?_eq_none_iff, empty⟩
  by_cases h : group.fields = []
  · obtain ⟨nothing, same⟩ := empty h
    exact ⟨[], by rw [same, nothing, List.append_nil, List.append_nil], by simp, fun _ => rfl⟩
  · refine ⟨renameNotice group.owner
      (assignedName group.owner.unitFileName (output.units.map (·.name))), ?_,
      fun d => kind_of_mem_renameNotice, fun free => ?_⟩
    · rw [Output.add_eq h, diagnostics_eq, List.append_assoc]
    · exact renameNotice_eq_nil_iff.2 (assignedName_eq_self_iff.2 free)

/-- The fallback name clashes with a name that is derived, whichever comes first. -/
example :
    let field (name : String) : ResolvedField := ⟨name, ⟨1, "Hall", none, []⟩, .named "Door", ⟨1⟩⟩
    (noticesOf ⟨1, "Hall", none, []⟩
      [field "noLetterCanUppercase", field "_DOOR", field "_"]).map (fun d => (d.kind, d.field)) =
      [(.fallbackIdentifier, some "_DOOR"), (.duplicateAccessor, some "_DOOR"),
        (.fallbackIdentifier, some "_"), (.duplicateAccessor, some "_")] := by
  decide +kernel

end OwnerGroup

end HierarchyAccessors
