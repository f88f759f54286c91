import HierarchyAccessors.Proofs.Accounting
import Mathlib.Data.List.TakeWhile

/-!
# When a pass is clean

A pass records a diagnostic wherever something degrades, at three stages: where a variable is
resolved, where an accessor is written and where a unit gets its name. `Clean` says of the files and
the facts alone what has to be in order.

**Theorem (`hasNoDiagnostics_iff`).** A pass has no diagnostics just if its input is `Clean`.

Each stage has one lemma of the form "the list is empty just if …"
(`diagnostics_resolve_eq_nil_iff`, `diagnostics_group_eq_nil_iff`, `forall_mem_named_iff`). The last
two are about resolved fields; where no variable was dropped these are the bound symbols
(`map_binding_fields`), and the theorem follows.
-/

namespace HierarchyAccessors

/-! ## Clean input -/

/-- The symbols of the variables of the marked declarations, in source order. Variables that the
host cannot bind have none. -/
def boundSymbols (files : List SourceFile) (facts : Facts) : List FieldBinding :=
  (markedVariables files).filterMap fun (v, _) => facts.symbol? v

/-- The name of the accessor for a field. -/
def FieldBinding.propertyName (symbol : FieldBinding) : String :=
  (AccessorName.ofField symbol.name).text

/-- The owners of the bound variables: for each id the symbol that is met first. -/
def firstOwners (files : List SourceFile) (facts : Facts) : List NamedType :=
  NamedType.firstOfEach ((boundSymbols files facts).map (·.containingType))

/-- Nothing in the input makes a pass degrade. -/
structure Clean (files : List SourceFile) (facts : Facts) : Prop where
  /-- Every variable is bound. -/
  bound : ∀ v marker, (v, marker) ∈ markedVariables files → ∃ symbol, facts.symbol? v = some symbol
  /-- The first argument of every variable's marker is one of the three flags. -/
  flags : ∀ v marker, (v, marker) ∈ markedVariables files →
    ∃ argument n, marker.arguments.head? = some argument ∧
      facts.constant? argument = some (.integer n) ∧ (n = 1 ∨ n = 2 ∨ n = 4)
  /-- Every field name has a lowercase letter. -/
  letters : ∀ symbol ∈ boundSymbols files facts, ∃ c ∈ symbol.name.toList, isLowerLetter c = true
  /-- No two accessors of one owner have the same name. -/
  accessors : ∀ id : SymbolId,
    (((boundSymbols files facts).filter (·.containingType.id = id)).map (·.propertyName)).Nodup
  /-- No two owners have the same name. -/
  owners : ((firstOwners files facts).map (·.fullName)).Nodup
  /-- No owner has the name of the marker. -/
  unreserved : "FromHierarchyAttribute" ∉ (firstOwners files facts).map (·.fullName)

/-! ## Variables -/

theorem outcome_eq_ok_iff {v : Variable} {marker : Attribute} {facts : Facts}
    {field : ResolvedField} :
    v.outcome marker facts = .ok field ↔
      ∃ symbol source, facts.symbol? v = some symbol ∧ marker.source facts = .ok source ∧
        field = ⟨symbol.name, symbol.containingType, symbol.fieldType, source⟩ := by
  unfold Variable.outcome
  cases facts.symbol? v with
  | none => simp
  | some symbol => cases marker.source facts <;> simp [eq_comm]

theorem failure?_eq_none_iff {ε α : Type} {verdict : Except ε α} :
    failure? verdict = none ↔ ∃ a, verdict = .ok a := by
  cases verdict <;> simp [failure?]

/-- Nothing is said about the variables just if each of them becomes a field. -/
theorem diagnostics_resolve_eq_nil_iff (files : List SourceFile) (facts : Facts) :
    (resolve (markedFields files) facts).diagnostics = [] ↔
      ∀ v marker, (v, marker) ∈ markedVariables files →
        ∃ field, v.outcome marker facts = .ok field := by
  simp only [resolve, outcomes_markedFields, List.filterMap_eq_nil_iff, List.forall_mem_map,
    failure?_eq_none_iff, Prod.forall]

/-- A marker has a source with a lookup of its own just if its first argument is one of the three
flags. -/
theorem source_canonical_iff {marker : Attribute} {facts : Facts} :
    (∃ source, marker.source facts = .ok source ∧ source.scope?.isSome) ↔
      ∃ argument n, marker.arguments.head? = some argument ∧
        facts.constant? argument = some (.integer n) ∧ (n = 1 ∨ n = 2 ∨ n = 4) := by
  constructor
  · rintro ⟨source, hsource, hscope⟩
    obtain ⟨scope, hscope⟩ := Option.isSome_iff_exists.1 hscope
    rw [RetrievalSource.scope?_eq_some_iff] at hscope
    unfold Attribute.source at hsource
    split at hsource
    · cases hsource
    · next argument more first =>
      split at hsource
      · cases hsource
      · next n known =>
        split at hsource
        · next decoded range =>
          cases hsource
          have bits := (ofConstant?_eq_some range).2
          rw [hscope] at bits
          refine ⟨argument, n, by rw [first]; rfl, known, ?_⟩
          cases scope with
          | itself => exact .inl (Int64.toInt_inj.1 bits.symm)
          | descendants => exact .inr (.inl (Int64.toInt_inj.1 bits.symm))
          | ancestors => exact .inr (.inr (Int64.toInt_inj.1 bits.symm))
        · cases hsource
      · cases hsource
  · rintro ⟨argument, n, first, known, flag⟩
    obtain ⟨more, first⟩ := List.head?_eq_some_iff.1 first
    unfold Attribute.source
    rw [first]
    dsimp only
    rw [known]
    rcases flag with rfl | rfl | rfl <;> exact ⟨_, rfl, rfl⟩

/-! ## Accessors -/

theorem isFallback_ofField (name : String) :
    (AccessorName.ofField name).isFallback = false ↔
      ∃ c ∈ name.toList, isLowerLetter c = true := by
  obtain none | ⟨before, c, later, split, others, letter⟩ := AccessorName.split_cases name
  · rw [AccessorName.ofField_eq_fallback none]
    simpa [AccessorName.isFallback] using none
  · rw [AccessorName.ofField_of_split split others letter]
    exact iff_of_true rfl ⟨c, by simp [split], letter⟩

theorem fallbacks_eq_nil_iff {field : ResolvedField} {owner : NamedType} :
    field.fallbacks owner = [] ↔
      (∃ c ∈ field.fieldName.toList, isLowerLetter c = true) ∧ field.source.scope?.isSome := by
  rw [ResolvedField.fallbacks, List.append_eq_nil_iff, ← isFallback_ofField]
  simp [Option.isSome_iff_ne_none]

theorem repetition_eq_nil_iff {field : ResolvedField} {owner : NamedType} {taken : List String} :
    field.repetition owner taken = [] ↔ field.propertyName ∉ taken := by
  simp [ResolvedField.repetition]

namespace OwnerGroup

theorem diagnosticsAfter_eq_nil_iff {owner : NamedType} {taken : List String}
    {fields : List ResolvedField} :
    diagnosticsAfter owner taken fields = [] ↔
      (∀ field ∈ fields, field.fallbacks owner = []) ∧ (fields.map (·.propertyName)).Nodup ∧
        ∀ field ∈ fields, field.propertyName ∉ taken := by
  induction fields generalizing taken with
  | nil => simp [diagnosticsAfter]
  | cons field fields ih =>
    simp only [diagnosticsAfter, List.append_eq_nil_iff, ih, repetition_eq_nil_iff, List.map_cons,
      List.nodup_cons, List.mem_cons, List.mem_map]
    grind

/-- Nothing is said about the accessors of a group just if each is as it should be and their names
are distinct. -/
theorem diagnostics_group_eq_nil_iff {group : OwnerGroup} :
    group.diagnostics = [] ↔
      (∀ field ∈ group.fields, (∃ c ∈ field.fieldName.toList, isLowerLetter c = true) ∧
        field.source.scope?.isSome) ∧ (group.fields.map (·.propertyName)).Nodup := by
  simp [diagnostics, diagnosticsAfter_eq_nil_iff, fallbacks_eq_nil_iff]

/-- The groups together, said of the fields. -/
theorem diagnostics_groups_eq_nil_iff (fields : List ResolvedField) :
    (∀ group ∈ ofFields fields, group.diagnostics = []) ↔
      (∀ field ∈ fields, (∃ c ∈ field.fieldName.toList, isLowerLetter c = true) ∧
        field.source.scope?.isSome) ∧
      ∀ id, ((fields.filter (·.owner.id = id)).map (·.propertyName)).Nodup := by
  have partition := stablePartition_ofFields fields
  constructor
  · intro clean
    have found (field : ResolvedField) (hf : field ∈ fields) :
        ∃ group ∈ ofFields fields, group.fields = fields.filter (·.owner.id = field.owner.id) := by
      obtain ⟨group, hg, hid⟩ := partition.exists_group hf
      exact ⟨group, hg, hid ▸ partition.fields group hg⟩
    refine ⟨fun field hf => ?_, fun id => ?_⟩
    · obtain ⟨group, hg, eq⟩ := found field hf
      refine (diagnostics_group_eq_nil_iff.1 (clean group hg)).1 field ?_
      rw [eq, List.mem_filter]
      exact ⟨hf, decide_eq_true rfl⟩
    · cases h : fields.filter (·.owner.id = id) with
      | nil => exact List.nodup_nil
      | cons field rest =>
        have hf : field ∈ fields.filter (·.owner.id = id) := h ▸ List.mem_cons_self
        obtain ⟨hf, hid⟩ := List.mem_filter.1 hf
        obtain ⟨group, hg, eq⟩ := found field hf
        rw [← h, ← of_decide_eq_true hid, ← eq]
        exact (diagnostics_group_eq_nil_iff.1 (clean group hg)).2
  · rintro ⟨each, names⟩ group hg
    rw [diagnostics_group_eq_nil_iff, partition.fields group hg]
    exact ⟨fun field hf => each field (List.mem_of_mem_filter hf), names _⟩

end OwnerGroup

/-! ## From fields to symbols -/

/-- The symbol that a field is resolved from. -/
def ResolvedField.binding (field : ResolvedField) : FieldBinding :=
  ⟨field.fieldName, field.fieldType, field.owner⟩

section Resolved

variable {files : List SourceFile} {facts : Facts}
  (h : ∀ v marker, (v, marker) ∈ markedVariables files →
    ∃ field, v.outcome marker facts = .ok field)

include h

/-- Where every variable becomes a field, the fields are those of the bound symbols. -/
theorem map_binding_fields :
    (resolve (markedFields files) facts).fields.map (·.binding) = boundSymbols files facts := by
  rw [resolve, outcomes_markedFields, List.filterMap_map, List.map_filterMap, boundSymbols]
  apply List.filterMap_congr
  rintro ⟨v, marker⟩ hv
  obtain ⟨field, hok⟩ := h v marker hv
  obtain ⟨symbol, source, bound, -, rfl⟩ := outcome_eq_ok_iff.1 hok
  simp [hok, bound, ResolvedField.binding, Except.toOption]

theorem map_propertyName_fields (id : SymbolId) :
    (((resolve (markedFields files) facts).fields.filter (·.owner.id = id)).map (·.propertyName)) =
      ((boundSymbols files facts).filter (·.containingType.id = id)).map (·.propertyName) := by
  rw [← map_binding_fields h, List.filter_map, List.map_map]
  rfl

theorem firstOfEach_owners_fields :
    NamedType.firstOfEach ((resolve (markedFields files) facts).fields.map (·.owner)) =
      firstOwners files facts := by
  rw [firstOwners, ← map_binding_fields h, List.map_map]
  rfl

theorem forall_letters_fields :
    (∀ field ∈ (resolve (markedFields files) facts).fields,
        ∃ c ∈ field.fieldName.toList, isLowerLetter c = true) ↔
      ∀ symbol ∈ boundSymbols files facts, ∃ c ∈ symbol.name.toList, isLowerLetter c = true := by
  rw [← map_binding_fields h, List.forall_mem_map]
  rfl

end Resolved

theorem mem_fields_resolve_iff {files : List SourceFile} {facts : Facts} {field : ResolvedField} :
    field ∈ (resolve (markedFields files) facts).fields ↔
      ∃ v marker, (v, marker) ∈ markedVariables files ∧ v.outcome marker facts = .ok field := by
  rw [resolve, outcomes_markedFields, List.filterMap_map, List.mem_filterMap, Prod.exists]
  refine exists_congr fun v => exists_congr fun marker => and_congr_right fun _ => ?_
  change (v.outcome marker facts).toOption = some field ↔ _
  cases v.outcome marker facts <;> simp [Except.toOption]

/-- A variable becomes a field with a lookup of its own just if it is bound and its marker gives one
of the three flags. -/
theorem outcome_canonical_iff {v : Variable} {marker : Attribute} {facts : Facts} :
    (∃ field, v.outcome marker facts = .ok field ∧ field.source.scope?.isSome) ↔
      (∃ symbol, facts.symbol? v = some symbol) ∧
        ∃ argument n, marker.arguments.head? = some argument ∧
          facts.constant? argument = some (.integer n) ∧ (n = 1 ∨ n = 2 ∨ n = 4) := by
  rw [← source_canonical_iff]
  constructor
  · rintro ⟨field, ok, scope⟩
    obtain ⟨symbol, source, bound, hsource, rfl⟩ := outcome_eq_ok_iff.1 ok
    exact ⟨⟨symbol, bound⟩, source, hsource, scope⟩
  · rintro ⟨⟨symbol, bound⟩, source, hsource, scope⟩
    exact ⟨_, outcome_eq_ok_iff.2 ⟨symbol, source, bound, hsource, rfl⟩, scope⟩

theorem forall_canonical_iff {files : List SourceFile} {facts : Facts} :
    ((∀ v marker, (v, marker) ∈ markedVariables files →
          ∃ field, v.outcome marker facts = .ok field) ∧
        ∀ field ∈ (resolve (markedFields files) facts).fields, field.source.scope?.isSome) ↔
      ∀ v marker, (v, marker) ∈ markedVariables files →
        ∃ field, v.outcome marker facts = .ok field ∧ field.source.scope?.isSome := by
  constructor
  · rintro ⟨resolved, scopes⟩ v marker hv
    obtain ⟨field, ok⟩ := resolved v marker hv
    exact ⟨field, ok, scopes field (mem_fields_resolve_iff.2 ⟨v, marker, hv, ok⟩)⟩
  · intro canonical
    refine ⟨fun v marker hv => (canonical v marker hv).imp fun _ => And.left, fun field hf => ?_⟩
    obtain ⟨v, marker, hv, ok⟩ := mem_fields_resolve_iff.1 hf
    obtain ⟨field', ok', scope⟩ := canonical v marker hv
    obtain rfl : field' = field := by simpa [ok] using ok'.symm
    exact scope

/-! ## The pass -/

/-- The diagnostics of a pass are those about the variables, about the accessors and about the names
of the units. -/
theorem diagnostics_generate_eq_nil_iff (files : List SourceFile) (facts : Facts) :
    (generate files facts).diagnostics = [] ↔
      (resolve (markedFields files) facts).diagnostics = [] ∧
      (∀ group ∈ OwnerGroup.ofFields (resolve (markedFields files) facts).fields,
        group.diagnostics = []) ∧
      let owners := NamedType.firstOfEach
        ((resolve (markedFields files) facts).fields.map (·.owner))
      (owners.map (·.fullName)).Nodup ∧ Schema.attributeName ∉ owners.map (·.fullName) := by
  have own := OwnerGroup.forall_mem_named_iff (List.nodup_singleton Schema.unit.name)
    (OwnerGroup.ofFields (resolve (markedFields files) facts).fields)
  rw [List.singleton_append, OwnerGroup.owners_ofFields, OwnerGroup.nodup_unitFileNames_iff] at own
  dsimp only
  rw [← own, generate_eq, List.append_eq_nil_iff, List.flatMap_eq_nil_iff]
  refine and_congr_right fun _ => ?_
  simp only [List.append_eq_nil_iff, OwnerGroup.renameNotice_eq_nil_iff, forall_and]
  refine and_congr_left fun _ => ?_
  rw [← OwnerGroup.map_fst_named [Schema.unit.name] (OwnerGroup.ofFields _), List.forall_mem_map]
  rfl

/-- **A pass is clean just if its input is.** -/
theorem hasNoDiagnostics_iff (files : List SourceFile) (facts : Facts) :
    (generate files facts).hasNoDiagnostics = true ↔ Clean files facts := by
  rw [Output.hasNoDiagnostics, List.isEmpty_iff, diagnostics_generate_eq_nil_iff,
    diagnostics_resolve_eq_nil_iff, OwnerGroup.diagnostics_groups_eq_nil_iff]
  constructor
  · rintro ⟨resolved, ⟨each, names⟩, owners, unreserved⟩
    have canonical := forall_canonical_iff.1 ⟨resolved, fun field hf => (each field hf).2⟩
    rw [firstOfEach_owners_fields resolved] at owners unreserved
    refine ⟨fun v marker hv => ?_, fun v marker hv => ?_, ?_, fun id => ?_, owners, unreserved⟩
    · exact (outcome_canonical_iff.1 (canonical v marker hv)).1
    · exact (outcome_canonical_iff.1 (canonical v marker hv)).2
    · exact (forall_letters_fields resolved).1 fun field hf => (each field hf).1
    · rw [← map_propertyName_fields resolved]
      exact names id
  · intro clean
    obtain ⟨resolved, scopes⟩ := forall_canonical_iff.2 fun v marker hv =>
      outcome_canonical_iff.2 ⟨clean.bound v marker hv, clean.flags v marker hv⟩
    have letters := (forall_letters_fields resolved).2 clean.letters
    rw [firstOfEach_owners_fields resolved]
    refine ⟨resolved, ⟨fun field hf => ⟨letters field hf, scopes field hf⟩, fun id => ?_⟩,
      clean.owners, clean.unreserved⟩
    rw [map_propertyName_fields resolved]
    exact clean.accessors id

end HierarchyAccessors
