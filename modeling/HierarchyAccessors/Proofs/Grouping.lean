import HierarchyAccessors.OwnerGroup
import Mathlib.Data.List.Induction
import Mathlib.Data.List.Nodup

/-!
# Groups are a stable partition by owner

`OwnerGroup.ofFields` splits the resolved fields by the id of their owner. The ids of the groups are
those of the fields, each once and in the order in which they first occur; a group holds exactly
the fields with its id, in the order of the list, and takes its owner from the first of them.

**Theorem (`ofFields_partitions`).** This holds for every list of fields, and no field is lost or
doubled.

The proof adds the fields one after the other: `StablePartition` is the invariant, and
`StablePartition.add` says that adding a field keeps it.
-/

namespace HierarchyAccessors

/-- Removing repetitions leaves none. -/
theorem nodup_eraseDups {α : Type*} [BEq α] [LawfulBEq α] (as : List α) : as.eraseDups.Nodup := by
  induction as using List.reverseRecOn with
  | nil => simp
  | append_singleton as a ih =>
    rw [List.eraseDups_append]
    by_cases ha : a ∈ as
    · simpa [List.removeAll, ha] using ih
    · simp [List.removeAll, ha, List.eraseDups_cons, List.nodup_append, ih]
      exact fun b hb h => ha (h ▸ hb)

namespace NamedType

/-- For each id the type that is met first, in the order in which the ids first occur. -/
def firstOfEach (types : List NamedType) : List NamedType :=
  types.eraseDupsBy fun a b => a.id == b.id

theorem firstOfEach_cons (type : NamedType) (types : List NamedType) :
    firstOfEach (type :: types) = type :: firstOfEach (types.filter (·.id ≠ type.id)) := by
  unfold firstOfEach
  rw [List.eraseDupsBy_cons]
  congr 3
  funext other
  simp

theorem firstOfEach_append_singleton (types : List NamedType) (type : NamedType) :
    firstOfEach (types ++ [type]) =
      if type.id ∈ types.map (·.id) then firstOfEach types else firstOfEach types ++ [type] := by
  -- What is left of the list after its first type is shorter, but no tail of it.
  induction hn : types.length using Nat.strongRecOn generalizing types with
  | ind n ih =>
    cases types with
    | nil => rfl
    | cons first types =>
      rw [List.cons_append, firstOfEach_cons, firstOfEach_cons, List.filter_append]
      by_cases h : type.id = first.id
      · simp [h]
      · have shorter : (types.filter (·.id ≠ first.id)).length < n := by
          rw [← hn, List.length_cons]
          exact Nat.lt_succ_of_le (List.length_filter_le _ _)
        have kept : [type].filter (·.id ≠ first.id) = [type] := by simp [h]
        have known : type.id ∈ (types.filter (·.id ≠ first.id)).map (·.id) ↔
            type.id ∈ (first :: types).map (·.id) := by
          simp only [List.mem_map, List.mem_filter, List.mem_cons, decide_eq_true_eq]
          constructor
          · rintro ⟨other, ⟨hmem, -⟩, hid⟩
            exact ⟨other, .inr hmem, hid⟩
          · rintro ⟨other, rfl | hmem, hid⟩
            · exact absurd hid.symm h
            · exact ⟨other, ⟨hmem, fun heq => h (hid ▸ heq)⟩, hid⟩
        rw [kept, ih _ shorter _ rfl]
        simp only [known]
        split <;> rfl

end NamedType

namespace OwnerGroup

/-- The groups split the fields by the id of the owner and keep their order. -/
structure StablePartition (fields : List ResolvedField) (groups : List OwnerGroup) : Prop where
  ids : groups.map (·.owner.id) = (fields.map (·.owner.id)).eraseDups
  fields : ∀ group ∈ groups, group.fields = fields.filter (·.owner.id = group.owner.id)
  owner : ∀ group ∈ groups, group.fields.head?.map (·.owner) = some group.owner

/-! ## Adding a field -/

theorem ids_add (field : ResolvedField) (groups : List OwnerGroup) :
    (add field groups).map (·.owner.id) =
      if field.owner.id ∈ groups.map (·.owner.id) then groups.map (·.owner.id)
      else groups.map (·.owner.id) ++ [field.owner.id] := by
  induction groups with
  | nil => rfl
  | cons group groups ih =>
    unfold add
    by_cases h : group.owner.id = field.owner.id
    · simp [h]
    · have h' : field.owner.id ≠ group.owner.id := Ne.symm h
      rw [if_neg h, List.map_cons, ih]
      split <;> simp_all

/-- A group after adding a field is an old group of another owner, the old group of this owner
with the field at its end, or a new group with nothing else. -/
theorem mem_add {field : ResolvedField} {groups : List OwnerGroup} {group : OwnerGroup}
    (nodup : (groups.map (·.owner.id)).Nodup) (h : group ∈ add field groups) :
    group ∈ groups ∧ group.owner.id ≠ field.owner.id ∨
      (∃ old ∈ groups, old.owner.id = field.owner.id ∧
        group = { old with fields := old.fields ++ [field] }) ∨
      field.owner.id ∉ groups.map (·.owner.id) ∧ group = ⟨field.owner, [field]⟩ := by
  induction groups with
  | nil => exact .inr (.inr ⟨by simp, by simpa [add] using h⟩)
  | cons first groups ih =>
    rw [List.map_cons, List.nodup_cons] at nodup
    unfold add at h
    by_cases hid : first.owner.id = field.owner.id
    · rw [if_pos hid, List.mem_cons] at h
      rcases h with rfl | h
      · exact .inr (.inl ⟨first, List.mem_cons_self, hid, rfl⟩)
      · refine .inl ⟨List.mem_cons_of_mem _ h, fun heq => nodup.1 ?_⟩
        rw [hid, ← heq]
        exact List.mem_map_of_mem h
    · rw [if_neg hid, List.mem_cons] at h
      rcases h with rfl | h
      · exact .inl ⟨List.mem_cons_self, hid⟩
      · rcases ih nodup.2 h with ⟨hmem, hne⟩ | ⟨old, hold, hid', rfl⟩ | ⟨hnew, rfl⟩
        · exact .inl ⟨List.mem_cons_of_mem _ hmem, hne⟩
        · exact .inr (.inl ⟨old, List.mem_cons_of_mem _ hold, hid', rfl⟩)
        · exact .inr (.inr ⟨by simpa using ⟨Ne.symm hid, by simpa using hnew⟩, rfl⟩)

theorem StablePartition.add {fields : List ResolvedField} {groups : List OwnerGroup}
    (h : StablePartition fields groups) (field : ResolvedField) :
    StablePartition (fields ++ [field]) (OwnerGroup.add field groups) := by
  have nodup : (groups.map (·.owner.id)).Nodup := h.ids ▸ nodup_eraseDups _
  have known : field.owner.id ∈ groups.map (·.owner.id) ↔
      field.owner.id ∈ fields.map (·.owner.id) := by rw [h.ids, List.mem_eraseDups]
  refine ⟨?_, fun group hg => ?_, fun group hg => ?_⟩
  · rw [ids_add, List.map_append, List.eraseDups_append, ← h.ids]
    by_cases hk : field.owner.id ∈ fields.map (·.owner.id)
    · rw [if_pos (known.2 hk)]
      have : [field.owner.id].removeAll (fields.map (·.owner.id)) = [] := by
        simpa [List.removeAll] using hk
      simp [this]
    · rw [if_neg (mt known.1 hk)]
      have : [field.owner.id].removeAll (fields.map (·.owner.id)) = [field.owner.id] := by
        simpa [List.removeAll] using hk
      simp [this, List.eraseDups_cons]
  · rw [List.filter_append]
    rcases mem_add nodup hg with ⟨hmem, hne⟩ | ⟨old, hold, hid, rfl⟩ | ⟨hnew, rfl⟩
    · simp [← h.fields group hmem, Ne.symm hne]
    · simp [h.fields old hold, hid]
    · have none : fields.filter (·.owner.id = field.owner.id) = [] := by
        rw [List.filter_eq_nil_iff]
        intro f hf hid
        exact hnew (known.2 (of_decide_eq_true hid ▸ List.mem_map_of_mem hf))
      simp [none]
  · rcases mem_add nodup hg with ⟨hmem, -⟩ | ⟨old, hold, -, rfl⟩ | ⟨-, rfl⟩
    · exact h.owner group hmem
    · have := h.owner old hold
      cases hf : old.fields with
      | nil => simp [hf] at this
      | cons f fs => simpa [hf] using this
    · rfl

theorem perm_add (field : ResolvedField) (groups : List OwnerGroup) :
    ((add field groups).flatMap (·.fields)).Perm (groups.flatMap (·.fields) ++ [field]) := by
  induction groups with
  | nil => simp [add]
  | cons group groups ih =>
    unfold add
    split
    · simp only [List.flatMap_cons, List.append_assoc]
      exact List.perm_append_comm.append_left group.fields
    · simp only [List.flatMap_cons, List.append_assoc]
      exact ih.append_left group.fields

/-! ## All fields -/

theorem ofFields_append_singleton (fields : List ResolvedField) (field : ResolvedField) :
    ofFields (fields ++ [field]) = add field (ofFields fields) := by
  simp [ofFields]

theorem stablePartition_ofFields (fields : List ResolvedField) :
    StablePartition fields (ofFields fields) := by
  induction fields using List.reverseRecOn with
  | nil => exact ⟨rfl, by simp [ofFields], by simp [ofFields]⟩
  | append_singleton fields field ih =>
    rw [ofFields_append_singleton]
    exact ih.add field

/-- The groups hold every field once and nothing else. -/
theorem perm_ofFields (fields : List ResolvedField) :
    ((ofFields fields).flatMap (·.fields)).Perm fields := by
  induction fields using List.reverseRecOn with
  | nil => simp [ofFields]
  | append_singleton fields field ih =>
    rw [ofFields_append_singleton]
    exact (perm_add field _).trans (ih.append_right [field])

/-! ## The owners -/

theorem owners_add (field : ResolvedField) (groups : List OwnerGroup) :
    (add field groups).map (·.owner) =
      if field.owner.id ∈ groups.map (·.owner.id) then groups.map (·.owner)
      else groups.map (·.owner) ++ [field.owner] := by
  induction groups with
  | nil => rfl
  | cons group groups ih =>
    unfold add
    by_cases h : group.owner.id = field.owner.id
    · simp [h]
    · have h' : field.owner.id ≠ group.owner.id := Ne.symm h
      rw [if_neg h, List.map_cons, ih]
      split <;> simp_all

/-- The owners of the groups are the types that are met first. -/
theorem owners_ofFields (fields : List ResolvedField) :
    (ofFields fields).map (·.owner) = NamedType.firstOfEach (fields.map (·.owner)) := by
  induction fields using List.reverseRecOn with
  | nil => rfl
  | append_singleton fields field ih =>
    have known : field.owner.id ∈ (ofFields fields).map (·.owner.id) ↔
        field.owner.id ∈ (fields.map (·.owner)).map (·.id) := by
      rw [(stablePartition_ofFields fields).ids, List.mem_eraseDups, List.map_map]
      rfl
    rw [ofFields_append_singleton, owners_add, ih, List.map_append, List.map_singleton,
      NamedType.firstOfEach_append_singleton]
    by_cases h : field.owner.id ∈ (fields.map (·.owner)).map (·.id)
    · rw [if_pos h, if_pos (known.2 h)]
    · rw [if_neg h, if_neg (mt known.1 h)]

namespace StablePartition

variable {fields : List ResolvedField} {groups : List OwnerGroup}

theorem nodup_ids (h : StablePartition fields groups) : (groups.map (·.owner.id)).Nodup :=
  h.ids ▸ nodup_eraseDups _

theorem exists_group (h : StablePartition fields groups) {field : ResolvedField}
    (hf : field ∈ fields) : ∃ group ∈ groups, group.owner.id = field.owner.id := by
  have known : field.owner.id ∈ groups.map (·.owner.id) := by
    rw [h.ids, List.mem_eraseDups]
    exact List.mem_map_of_mem hf
  obtain ⟨group, hg, hid⟩ := List.mem_map.1 known
  exact ⟨group, hg, hid⟩

/-- The groups are determined by the fields of each id. -/
theorem mem_iff (h : StablePartition fields groups) {group : OwnerGroup} :
    group ∈ groups ↔ group.fields = fields.filter (·.owner.id = group.owner.id) ∧
      group.fields.head?.map (·.owner) = some group.owner := by
  refine ⟨fun hg => ⟨h.fields group hg, h.owner group hg⟩, fun ⟨all, first⟩ => ?_⟩
  obtain ⟨field, head, howner⟩ := Option.map_eq_some_iff.1 first
  have hf : field ∈ fields.filter (·.owner.id = group.owner.id) :=
    all ▸ List.mem_of_mem_head? head
  obtain ⟨other, hother, hid⟩ := h.exists_group (List.mem_filter.1 hf).1
  rw [howner] at hid
  have same : other.fields = group.fields := by rw [h.fields other hother, hid, all]
  have owner : some other.owner = some group.owner := by rw [← h.owner other hother, same, first]
  have eq : other = group := by
    cases other
    cases group
    simp_all
  exact eq ▸ hother

/-- The groups of an id hold the fields with the id, in order. -/
theorem flatMap_fields (h : StablePartition fields groups) (id : SymbolId) :
    (groups.filter (·.owner.id = id)).flatMap (·.fields) = fields.filter (·.owner.id = id) := by
  cases found : groups.filter (·.owner.id = id) with
  | nil =>
    refine (List.filter_eq_nil_iff.2 fun field hf own => ?_).symm
    obtain ⟨group, hg, hid⟩ := h.exists_group hf
    have owned : group ∈ groups.filter (·.owner.id = id) :=
      List.mem_filter.2 ⟨hg, decide_eq_true (hid.trans (of_decide_eq_true own))⟩
    rw [found] at owned
    cases owned
  | cons group others =>
    have member (g : OwnerGroup) (hg : g ∈ group :: others) : g ∈ groups ∧ g.owner.id = id := by
      rw [← found, List.mem_filter] at hg
      exact ⟨hg.1, of_decide_eq_true hg.2⟩
    have distinct : ((group :: others).map (·.owner.id)).Nodup := by
      rw [← found]
      exact h.nodup_ids.sublist (List.filter_sublist.map _)
    obtain ⟨hg, hid⟩ := member group List.mem_cons_self
    have single : others = [] := List.eq_nil_iff_forall_not_mem.2 fun other ho =>
      (List.nodup_cons.1 distinct).1
        (List.mem_map.2 ⟨other, ho, (member other (List.mem_cons_of_mem _ ho)).2.trans hid.symm⟩)
    rw [single, List.flatMap_singleton, h.fields group hg, hid]

theorem fields_ne_nil (h : StablePartition fields groups) :
    ∀ group ∈ groups, group.fields ≠ [] := by
  intro group hg hnil
  have := h.owner group hg
  simp [hnil] at this

end StablePartition

/-- Fields that stand in the same order within every id have the same groups, in some order. -/
theorem ofFields_perm {fields fields' : List ResolvedField}
    (h : ∀ id, fields.filter (·.owner.id = id) = fields'.filter (·.owner.id = id)) :
    (ofFields fields).Perm (ofFields fields') := by
  have partition := stablePartition_ofFields fields
  have partition' := stablePartition_ofFields fields'
  rw [List.perm_ext_iff_of_nodup (List.Nodup.of_map _ partition.nodup_ids)
    (List.Nodup.of_map _ partition'.nodup_ids)]
  intro group
  rw [partition.mem_iff, partition'.mem_iff, h]

/-! ## The partition as a whole -/

/-- **Fields are grouped by the id of their owner.** The ids of the groups are those of the fields,
each once and in the order in which they first occur. No group is empty; its fields are those with
its id, in the order of the list, and its owner is that of the first of them, whatever the owners of
the others are called. A field with another id stands in another group, even if its owner has the
same name. The groups together hold every field once. -/
theorem ofFields_partitions (fields : List ResolvedField) :
    let groups := ofFields fields
    groups.map (·.owner.id) = (fields.map (·.owner.id)).eraseDups ∧
    (groups.map (·.owner.id)).Nodup ∧
    (groups.flatMap (·.fields)).Perm fields ∧
    ∀ group ∈ groups,
      group.fields ≠ [] ∧
      group.fields = fields.filter (·.owner.id = group.owner.id) ∧
      (fields.find? (·.owner.id = group.owner.id)).map (·.owner) = some group.owner ∧
      ∀ field ∈ fields, field ∈ group.fields ↔ field.owner.id = group.owner.id := by
  have partition := stablePartition_ofFields fields
  refine ⟨partition.ids, partition.nodup_ids, perm_ofFields fields, fun group hg => ?_⟩
  have own := partition.fields group hg
  refine ⟨partition.fields_ne_nil group hg, own, ?_, fun field hf => ?_⟩
  · rw [← List.head?_filter, ← own]
    exact partition.owner group hg
  · rw [own, List.mem_filter, decide_eq_true_eq]
    exact and_iff_right hf

/-- Two owners of one name, and an owner whose second field has another name for it. -/
example :
    let door (field : String) (owner : NamedType) : ResolvedField :=
      ⟨field, owner, .named "Door", ⟨1⟩⟩
    ofFields [door "_a" ⟨1, "Hall", none, []⟩, door "_b" ⟨2, "Hall", none, []⟩,
        door "_c" ⟨1, "Lobby", some "Inn", ["Ground"]⟩] =
      [⟨⟨1, "Hall", none, []⟩,
          [door "_a" ⟨1, "Hall", none, []⟩, door "_c" ⟨1, "Lobby", some "Inn", ["Ground"]⟩]⟩,
        ⟨⟨2, "Hall", none, []⟩, [door "_b" ⟨2, "Hall", none, []⟩]⟩] := by
  decide

end OwnerGroup

end HierarchyAccessors
