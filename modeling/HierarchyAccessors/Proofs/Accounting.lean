import HierarchyAccessors.Proofs.Emission
import HierarchyAccessors.Proofs.UnitText
import Mathlib.Algebra.Group.Int.Defs
import Mathlib.Data.List.Forall2

/-!
# Every variable is accounted for

`Verdict` states, case by case, what is to become of a variable under a marker: one of four
diagnostics, where an unbound variable counts before anything about the argument does, or a
resolved field.

**Theorem (`generate_accounts`).** A pass gives every variable of the marked declarations its
verdict, and does nothing else. The diagnostics among the verdicts come first, in the order of the
variables, and no later one is about a field that was left out; the fields among them are the
accessors of the units, each in the unit of its owner's id and there in the order of the variables.
-/

namespace HierarchyAccessors

/-- The variables of the marked declarations in source order, each with the marker. -/
def markedVariables (files : List SourceFile) : List (Variable × Attribute) :=
  (markedFields files).flatMap fun field => field.declaration.declared.map (·, field.marker)

/-- What is to become of a variable whose declaration carries the marker. -/
inductive Verdict (facts : Facts) (v : Variable) (marker : Attribute) :
    Except Diagnostic ResolvedField → Prop
  /-- The host cannot bind the variable, whatever the marker's arguments are. -/
  | unresolvedSymbol (unbound : facts.symbol? v = none) :
    Verdict facts v marker (.error
      { kind := .unresolvedSymbol, owner := none, field := some v.name,
        message := s!"no symbol bound for field `{v.name}`" })
  | missingArgument {symbol : FieldBinding} (bound : facts.symbol? v = some symbol)
    (bare : marker.arguments = []) :
    Verdict facts v marker (.error
      { kind := .missingArgument, owner := some symbol.containingType.fullName,
        field := some symbol.name, message := ArgumentError.missing.message })
  | nonConstantArgument {symbol : FieldBinding} {argument : Expression} {more : List Expression}
    (bound : facts.symbol? v = some symbol) (first : marker.arguments = argument :: more)
    (unknown : facts.constant? argument = none) :
    Verdict facts v marker (.error
      { kind := .nonConstantArgument, owner := some symbol.containingType.fullName,
        field := some symbol.name, message := (ArgumentError.notConstant argument.text).message })
  /-- The constant is no integer of 32 bits. -/
  | argumentOutOfDomain {symbol : FieldBinding} {argument : Expression} {more : List Expression}
    {value : Constant} (bound : facts.symbol? v = some symbol)
    (first : marker.arguments = argument :: more) (known : facts.constant? argument = some value)
    (outside : ∀ n : Int64, value = .integer n → ¬(-2 ^ 31 ≤ n.toInt ∧ n.toInt ≤ 2 ^ 31 - 1)) :
    Verdict facts v marker (.error
      { kind := .argumentOutOfDomain, owner := some symbol.containingType.fullName,
        field := some symbol.name,
        message := (ArgumentError.outOfDomain argument.text value).message })
  /-- The field has the name, the owner and the type of the symbol and the bits of the constant. -/
  | resolved {symbol : FieldBinding} {argument : Expression} {more : List Expression} {n : Int64}
    {source : RetrievalSource} (bound : facts.symbol? v = some symbol)
    (first : marker.arguments = argument :: more)
    (known : facts.constant? argument = some (.integer n))
    (inside : -2 ^ 31 ≤ n.toInt ∧ n.toInt ≤ 2 ^ 31 - 1) (bits : source.bits.toInt = n.toInt) :
    Verdict facts v marker (.ok
      { fieldName := symbol.name, owner := symbol.containingType, fieldType := symbol.fieldType,
        source := source })

/-! ## One variable -/

/-- A constant gives a value of the enumeration if it is an integer of 32 bits. -/
theorem ofConstant?_eq (n : Int64) :
    RetrievalSource.ofConstant? n =
      if -2 ^ 31 ≤ n.toInt ∧ n.toInt ≤ 2 ^ 31 - 1 then some ⟨.ofInt n.toInt⟩ else none := by
  have low : Int32.minValue.toInt = -2 ^ 31 := by decide
  have high : Int32.maxValue.toInt = 2 ^ 31 - 1 := by decide
  rw [RetrievalSource.ofConstant?, low, high, Int32.ofInt_int64ToInt]

/-- A value of the enumeration comes from a constant of 32 bits and has its value. -/
theorem ofConstant?_eq_some {n : Int64} {source : RetrievalSource}
    (h : RetrievalSource.ofConstant? n = some source) :
    (-2 ^ 31 ≤ n.toInt ∧ n.toInt ≤ 2 ^ 31 - 1) ∧ source.bits.toInt = n.toInt := by
  rw [ofConstant?_eq] at h
  split at h
  · next range =>
    cases h
    exact ⟨range, Int32.toInt_ofInt_of_le range.1 (by omega)⟩
  · cases h

theorem ofConstant?_eq_none {n : Int64} (h : RetrievalSource.ofConstant? n = none) :
    ¬(-2 ^ 31 ≤ n.toInt ∧ n.toInt ≤ 2 ^ 31 - 1) := by
  rw [ofConstant?_eq] at h
  split at h
  · cases h
  · assumption

theorem verdict_outcome (facts : Facts) (v : Variable) (marker : Attribute) :
    Verdict facts v marker (v.outcome marker facts) := by
  unfold Variable.outcome
  split
  · next unbound => exact .unresolvedSymbol unbound
  · next symbol bound =>
    cases first : marker.arguments with
    | nil =>
      simp only [Attribute.source, first]
      exact .missingArgument bound first
    | cons argument more =>
      cases known : facts.constant? argument with
      | none =>
        simp only [Attribute.source, first, known]
        exact .nonConstantArgument bound first known
      | some value =>
        cases value with
        | integer n =>
          cases range : RetrievalSource.ofConstant? n with
          | none =>
            simp only [Attribute.source, first, known, range]
            refine .argumentOutOfDomain bound first known fun m hm => ?_
            cases hm
            exact ofConstant?_eq_none range
          | some source =>
            simp only [Attribute.source, first, known, range]
            obtain ⟨inside, bits⟩ := ofConstant?_eq_some range
            exact .resolved bound first known inside bits
        | boolean b =>
          simp only [Attribute.source, first, known]
          exact .argumentOutOfDomain bound first known nofun
        | string s =>
          simp only [Attribute.source, first, known]
          exact .argumentOutOfDomain bound first known nofun
        | null =>
          simp only [Attribute.source, first, known]
          exact .argumentOutOfDomain bound first known nofun

/-! ## All variables -/

theorem outcomes_markedFields (files : List SourceFile) (facts : Facts) :
    outcomes (markedFields files) facts =
      (markedVariables files).map fun (v, marker) => v.outcome marker facts := by
  simp [outcomes, markedVariables, List.map_flatMap, Function.comp_def]

theorem forall₂_verdict (files : List SourceFile) (facts : Facts) :
    List.Forall₂ (fun (v, marker) => Verdict facts v marker) (markedVariables files)
      (outcomes (markedFields files) facts) := by
  rw [outcomes_markedFields, List.forall₂_map_right_iff, List.forall₂_same]
  exact fun marked _ => verdict_outcome facts marked.1 marked.2

/-- What is said about a unit is about no field that was left out. -/
theorem losesField_of_mem_unit {group : OwnerGroup} {name : String} {d : Diagnostic}
    (h : d ∈ group.diagnostics ++ OwnerGroup.renameNotice group.owner name) :
    d.kind.losesField = false := by
  rcases List.mem_append.1 h with h | h
  · rcases kind_of_mem_diagnostics h with h | h | h <;> rw [h] <;> rfl
  · rw [kind_of_mem_renameNotice h]
    rfl

/-- **Nothing is lost, doubled or misplaced.** The variables of the marked declarations have their
verdicts in order. The diagnostics of the pass begin with those among the verdicts, all about
fields that were left out, and no other is about such a field. After the first unit, which is
always the same, the units are those of the owners of the resolved fields, one for each id, and the
accessors of a unit are those of the fields with its id, in order; all accessors together are those
of the resolved fields, each once. -/
theorem generate_accounts (files : List SourceFile) (facts : Facts) :
    ∃ verdicts : List (Except Diagnostic ResolvedField),
      List.Forall₂ (fun (v, marker) => Verdict facts v marker) (markedVariables files) verdicts ∧
      (∃ later, (generate files facts).diagnostics = verdicts.filterMap failure? ++ later ∧
        (∀ d ∈ verdicts.filterMap failure?, d.kind.losesField = true) ∧
        ∀ d ∈ later, d.kind.losesField = false) ∧
      ∃ owned : List (OwnerGroup × String),
        let fields := verdicts.filterMap (·.toOption)
        (generate files facts).units =
          Schema.unit :: owned.map (fun (group, name) => ⟨name, textOf group.lines⟩) ∧
        owned.map (·.1.owner.id) = (fields.map (·.owner.id)).eraseDups ∧
        (owned.map (·.1.owner.id)).Nodup ∧
        (∀ e ∈ owned, e.1.fields = fields.filter (·.owner.id = e.1.owner.id) ∧
          e.1.fields.head?.map (·.owner) = some e.1.owner) ∧
        (owned.flatMap (·.1.fields)).Perm fields := by
  have groups : (namedGroups files facts).map (·.1) =
      OwnerGroup.ofFields (resolve (markedFields files) facts).fields :=
    OwnerGroup.map_fst_named _ _
  have partition := OwnerGroup.stablePartition_ofFields (resolve (markedFields files) facts).fields
  have perm := OwnerGroup.perm_ofFields (resolve (markedFields files) facts).fields
  rw [← groups] at partition perm
  refine ⟨outcomes (markedFields files) facts, forall₂_verdict files facts, ?_,
    namedGroups files facts, ?_, ?_, ?_, ?_, ?_⟩
  · refine ⟨(namedGroups files facts).flatMap fun (group, name) => group.diagnostics ++
      OwnerGroup.renameNotice group.owner name, ?_, fun d => losesField_of_mem_resolve, ?_⟩
    · rw [generate_eq]
      rfl
    · intro d hd
      obtain ⟨e, -, hd⟩ := List.mem_flatMap.1 hd
      exact losesField_of_mem_unit hd
  · simp only [generate_eq, OwnerGroup.source, OwnerGroup.text_write]
  · simpa [List.map_map, Function.comp_def, resolve] using partition.ids
  · simpa [List.map_map, Function.comp_def] using partition.nodup_ids
  · intro e he
    have hg : e.1 ∈ (namedGroups files facts).map (·.1) := List.mem_map_of_mem he
    exact ⟨partition.fields e.1 hg, partition.owner e.1 hg⟩
  · simpa [List.flatMap_map, resolve] using perm

end HierarchyAccessors
