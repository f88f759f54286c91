import HierarchyAccessors.Proofs.Accounting
import HierarchyAccessors.Proofs.Independence

/-!
# Rearranged declarations

The marked variables of a compilation may be spread over files and interleaved in any way. What
counts is the order of the variables of one owner: two lists of files are `Rearranged` if their
marked variables, each with the first argument of its marker, are the same up to an order that keeps
the variables of every owner in sequence.

**Theorem (`generate_rearranged`).** Where the owners have names of their own, rearranged files have
the same units, texts included, and the same diagnostics, each up to order, and the unit that
defines the marker stands first.

The fields of an owner come from its own variables (`filter_fields_eq`), so the groups are the same
up to order (`OwnerGroup.ofFields_perm`), and a unit's name and text depend on nothing but its group
(`generate_of_own_names`).
-/

namespace HierarchyAccessors

/-! ## Rearrangements -/

/-- The variables of the marked declarations in source order, each with the first argument of its
marker. -/
def markedArguments (files : List SourceFile) : List (Variable × Option Expression) :=
  (markedVariables files).map fun (v, marker) => (v, marker.arguments.head?)

/-- Whether the host binds a variable to a symbol of the owner with the id. -/
def Facts.bindsTo (facts : Facts) (id : SymbolId) (v : Variable) : Bool :=
  (facts.symbol? v).any (·.containingType.id = id)

/-- The same variables and arguments, where those of each owner stand in the same order. -/
structure Rearranged (facts : Facts) (marked marked' : List (Variable × Option Expression)) :
    Prop where
  perm : marked.Perm marked'
  order : ∀ id, marked.filter (facts.bindsTo id ·.1) = marked'.filter (facts.bindsTo id ·.1)

/-- The owners of the resolved fields, which have units: for each id the symbol that is met first.
-/
def resolvedOwners (files : List SourceFile) (facts : Facts) : List NamedType :=
  NamedType.firstOfEach ((resolve (markedFields files) facts).fields.map (·.owner))

/-! ## The fields of an owner -/

/-- What becomes of a variable under a marker with the first argument. The marker's name does not
matter. -/
def argumentOutcome (facts : Facts) (marked : Variable × Option Expression) :
    Except Diagnostic ResolvedField :=
  marked.1.outcome ⟨Schema.shortName, marked.2.toList⟩ facts

theorem outcomes_eq_map (files : List SourceFile) (facts : Facts) :
    outcomes (markedFields files) facts = (markedArguments files).map (argumentOutcome facts) := by
  rw [outcomes_markedFields, markedArguments, List.map_map]
  apply List.map_congr_left
  rintro ⟨v, marker⟩ -
  exact Variable.outcome_congr rfl
    (Attribute.source_congr Option.head?_toList.symm fun _ _ => rfl)

theorem owner_of_argumentOutcome {facts : Facts} {marked : Variable × Option Expression}
    {field : ResolvedField} (h : argumentOutcome facts marked = .ok field) (id : SymbolId) :
    facts.bindsTo id marked.1 = decide (field.owner.id = id) := by
  unfold argumentOutcome Variable.outcome at h
  split at h
  · cases h
  · next symbol bound =>
    split at h
    · cases h
    · cases h
      simp [Facts.bindsTo, bound]

theorem filter_fields_eq (files : List SourceFile) (facts : Facts) (id : SymbolId) :
    (resolve (markedFields files) facts).fields.filter (·.owner.id = id) =
      ((markedArguments files).filter (facts.bindsTo id ·.1)).filterMap
        fun marked => (argumentOutcome facts marked).toOption := by
  rw [resolve, outcomes_eq_map, List.filterMap_map, List.filter_filterMap, List.filterMap_filter]
  apply List.filterMap_congr
  intro marked _
  cases h : argumentOutcome facts marked with
  | error e => simp [h, Except.toOption]
  | ok field => simp [h, owner_of_argumentOutcome h, Except.toOption, Option.filter]

/-! ## Two runs -/

/-- **Only the order within an owner counts.** Where no two owners have the same name and none has
that of the marker, rearranged files give the same units and the same diagnostics up to order, after
the unit that every pass begins with. -/
theorem generate_rearranged {files files' : List SourceFile} {facts : Facts}
    (rearranged : Rearranged facts (markedArguments files) (markedArguments files'))
    (distinct : ((resolvedOwners files facts).map (·.fullName)).Nodup)
    (unreserved : "FromHierarchyAttribute" ∉ (resolvedOwners files facts).map (·.fullName)) :
    (∃ units units', (generate files facts).units = Schema.unit :: units ∧
      (generate files' facts).units = Schema.unit :: units' ∧ units.Perm units') ∧
    (generate files facts).diagnostics.Perm (generate files' facts).diagnostics := by
  have groups : (OwnerGroup.ofFields (resolve (markedFields files) facts).fields).Perm
      (OwnerGroup.ofFields (resolve (markedFields files') facts).fields) := by
    apply OwnerGroup.ofFields_perm
    intro id
    rw [filter_fields_eq, filter_fields_eq, rearranged.order]
  have dropped : (resolve (markedFields files) facts).diagnostics.Perm
      (resolve (markedFields files') facts).diagnostics := by
    rw [resolve, resolve, outcomes_eq_map, outcomes_eq_map]
    exact (rearranged.perm.map _).filterMap _
  have own := (OwnerGroup.nodup_unitFileNames_iff (resolvedOwners files facts)).2
    ⟨distinct, unreserved⟩
  rw [resolvedOwners, ← OwnerGroup.owners_ofFields] at own
  have names := ((groups.map (·.owner)).map (·.unitFileName)).cons Schema.unit.name
  have own' := names.nodup_iff.1 own
  rw [generate_of_own_names own, generate_of_own_names own']
  exact ⟨⟨_, _, rfl, rfl, groups.map _⟩, dropped.append (groups.flatMap_right _)⟩

/-- Two owners and a variable without a symbol. The variables of the first owner stand in one file
before the others, and in another file after them. -/
theorem generate_interleaved :
    let marker : Attribute := ⟨"FromHierarchy", [⟨9, "Self"⟩]⟩
    let bare : Attribute := ⟨"FromHierarchy", []⟩
    let field (id : NodeId) (name : String) (marker : Attribute) : Member :=
      .fieldDecl ⟨[[marker]], "Body", [⟨id, name⟩]⟩
    let files : List SourceFile :=
      [⟨"A.cs", [field 1 "_a" marker, field 2 "_b" bare, field 3 "_c" marker, field 4 "_d" marker]⟩]
    let files' : List SourceFile :=
      [⟨"B.cs", [field 4 "_d" marker, field 3 "_c" marker]⟩,
        ⟨"C.cs", [.typeDecl "T" [field 1 "_a" marker, field 2 "_b" bare]]⟩]
    let facts : Facts :=
      ⟨fun v => if v.id = 4 then none else
        some ⟨v.name, .named "Body", if v.id = 3 then ⟨8, "Q", none, []⟩ else ⟨7, "P", none, []⟩⟩,
        fun _ => some (.integer 1)⟩
    Rearranged facts (markedArguments files) (markedArguments files') ∧
      ((resolvedOwners files facts).map (·.fullName)).Nodup ∧
      "FromHierarchyAttribute" ∉ (resolvedOwners files facts).map (·.fullName) ∧
      (∃ units units', (generate files facts).units = Schema.unit :: units ∧
        (generate files' facts).units = Schema.unit :: units' ∧ units.Perm units') ∧
      (generate files facts).diagnostics.Perm (generate files' facts).diagnostics := by
  intro marker bare field files files' facts
  have marked : markedArguments files =
      [(⟨1, "_a"⟩, some ⟨9, "Self"⟩), (⟨2, "_b"⟩, none), (⟨3, "_c"⟩, some ⟨9, "Self"⟩),
        (⟨4, "_d"⟩, some ⟨9, "Self"⟩)] := by decide
  have marked' : markedArguments files' =
      [(⟨4, "_d"⟩, some ⟨9, "Self"⟩), (⟨3, "_c"⟩, some ⟨9, "Self"⟩), (⟨1, "_a"⟩, some ⟨9, "Self"⟩),
        (⟨2, "_b"⟩, none)] := by decide
  have rearranged : Rearranged facts (markedArguments files) (markedArguments files') := by
    rw [marked, marked']
    refine ⟨by decide, fun id => ?_⟩
    by_cases first : id = 7
    · subst first
      decide
    · by_cases second : id = 8
      · subst second
        decide
      · simp [Facts.bindsTo, facts, Ne.symm first, Ne.symm second]
  have owners : resolvedOwners files facts = [⟨7, "P", none, []⟩, ⟨8, "Q", none, []⟩] := by decide
  have distinct : ((resolvedOwners files facts).map (·.fullName)).Nodup := by
    rw [owners]
    decide
  have unreserved : "FromHierarchyAttribute" ∉ (resolvedOwners files facts).map (·.fullName) := by
    rw [owners]
    decide
  exact ⟨rearranged, distinct, unreserved, generate_rearranged rearranged distinct unreserved⟩

end HierarchyAccessors
