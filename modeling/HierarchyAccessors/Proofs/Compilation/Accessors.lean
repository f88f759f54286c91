import HierarchyAccessors.Proofs.Accounting
import HierarchyAccessors.Proofs.Compilation.Layout
import Mathlib.Data.List.Pairwise

/-!
# From steps to accessors

What a call for a field declaration leads to can be said without ids, tables and trees
(`NewField.accessors`): if its variables are bound and the first argument of its first marker is an
integer of 32 bits, an accessor for each name.

**Theorem (`generate_after`).** A pass over the snapshot of a compilation gives the owners with an
id just the accessors that the calls for this id lead to, in the order of the calls, whatever calls
for other owners and whatever files come in between.

The first part looks into the tables: the host's answers about a placed declaration are what the
call says (`Follows.resolved_declaration`). The second looks into the trees: they regroup the
declarations of a file by owner, but keep the order within an owner
(`OpenFile.Follows.filter_resolved`).
-/

namespace HierarchyAccessors

/-! ## What a call leads to -/

/-- The retrieval source that the first argument gives. -/
def NewAttribute.source? (usage : NewAttribute) : Option RetrievalSource :=
  match usage.arguments with
  | .constant _ (.integer n) :: _ =>
    if -2 ^ 31 ≤ n.toInt ∧ n.toInt ≤ 2 ^ 31 - 1 then some ⟨.ofInt n.toInt⟩ else none
  | _ => none

namespace NewField

/-- The first marker among the attributes. -/
def marker? (spec : NewField) : Option NewAttribute :=
  spec.attributes.find? fun usage => isMarker usage.name

/-- The accessors for the names. -/
def accessors (spec : NewField) (owner : NamedType) : List ResolvedField :=
  if spec.bound then
    match spec.marker?.bind (·.source?) with
    | none => []
    | some source => spec.names.map fun name => ⟨name, owner, spec.fieldType, source⟩
  else []

theorem owner_of_mem_accessors {spec : NewField} {owner : NamedType} {field : ResolvedField}
    (h : field ∈ spec.accessors owner) : field.owner = owner := by
  unfold accessors at h
  split at h
  · split at h
    · cases h
    · obtain ⟨name, -, rfl⟩ := List.mem_map.1 h
      rfl
  · cases h

end NewField

/-- The accessors for the owners with the id. -/
def Compilation.Step.accessors (id : SymbolId) : Step → List ResolvedField
  | field owner spec => if owner.id = id then spec.accessors owner else []
  | _ => []

theorem Compilation.flatMap_accessors (id : SymbolId) (steps : List Step) :
    steps.flatMap (·.accessors id) =
      ((steps.filterMap (·.call?)).filter (·.1.id = id)).flatMap
        fun (owner, spec) => spec.accessors owner := by
  induction steps with
  | nil => rfl
  | cons s steps ih =>
    rw [List.flatMap_cons, ih, List.filterMap_cons]
    cases s with
    | file path => rfl
    | topLevel namespaceName name => rfl
    | nested outer name => rfl
    | field owner spec => by_cases own : owner.id = id <;> simp [Step.accessors, Step.call?, own]

/-! ## Resolution by declaration -/

/-- The fields that the variables of a declaration become. -/
def FieldDeclaration.resolved (facts : Facts) (field : FieldDeclaration) : List ResolvedField :=
  match field.marker? with
  | none => []
  | some marker => field.declared.filterMap fun v => (v.outcome marker facts).toOption

theorem SourceFile.flatMap_outcomes (file : SourceFile) (facts : Facts) :
    (outcomes file.markedFields facts).filterMap (·.toOption) =
      file.fields.flatMap (·.resolved facts) := by
  unfold markedFields outcomes
  induction file.fields with
  | nil => rfl
  | cons field fields ih =>
    rw [List.filterMap_cons, List.flatMap_cons, FieldDeclaration.resolved]
    cases field.marker? with
    | none => exact ih
    | some marker =>
      rw [Option.map_some, List.flatMap_cons, List.filterMap_append, ih, List.filterMap_map]
      rfl

theorem fields_resolve (files : List SourceFile) (facts : Facts) :
    (resolve (markedFields files) facts).fields =
      (files.flatMap (·.fields)).flatMap (·.resolved facts) := by
  rw [List.flatMap_assoc, resolve, outcomes, markedFields, List.flatMap_assoc,
    List.filterMap_flatMap]
  exact List.flatMap_congr fun file _ => file.flatMap_outcomes facts

namespace Compilation

/-! ## Placed markers -/

/-- The first marker stays the first, and its arguments are placed among those of all attributes. -/
theorem find?_placedAttributes (n : Nat) (specs : List NewAttribute) :
    match specs.find? fun usage => isMarker usage.name with
    | none => (placedAttributes n specs).find? (fun usage => isMarker usage.name) = none
    | some usage => ∃ m,
      (placedAttributes n specs).find? (fun usage => isMarker usage.name) =
        some ⟨usage.name, placedArguments m usage.arguments⟩ ∧
      usage.arguments.zip (placedArguments m usage.arguments) ⊆
        (specs.flatMap (·.arguments)).zip (placedArguments n (specs.flatMap (·.arguments))) := by
  induction specs generalizing n with
  | nil => rfl
  | cons spec specs ih =>
    rw [placedAttributes, List.find?_cons, List.find?_cons, List.flatMap_cons,
      placedArguments_append, List.zip_append (length_placedArguments n spec.arguments).symm]
    cases isMarker spec.name with
    | true => exact ⟨n, rfl, List.subset_append_left _ _⟩
    | false =>
      have later := ih (n + spec.arguments.length)
      cases found : specs.find? (fun usage => isMarker usage.name) with
      | none =>
        rw [found] at later
        exact later
      | some usage =>
        rw [found] at later
        obtain ⟨m, first, among⟩ := later
        exact ⟨m, first, List.subset_append_of_subset_right _ among⟩

/-- Where the host folds the arguments of a placed marker to their values, the marker gives the
source that the first argument gives. -/
theorem source_placed (usage : NewAttribute) (m : Nat) {facts : Facts}
    (known : ∀ argument e, (argument, e) ∈ usage.arguments.zip (placedArguments m usage.arguments) →
      facts.constant? e = argument.value?) :
    ((⟨usage.name, placedArguments m usage.arguments⟩ : Attribute).source facts).toOption =
      usage.source? := by
  unfold NewAttribute.source? Attribute.source
  cases arguments : usage.arguments with
  | nil => rfl
  | cons argument more =>
    rw [arguments] at known
    have first := known argument ⟨.ofNat m, argument.text⟩ List.mem_cons_self
    have placed : placedArguments m (argument :: more) =
        ⟨.ofNat m, argument.text⟩ :: placedArguments (m + 1) more := rfl
    simp only [placed, first]
    cases argument with
    | nonConstant text => rfl
    | constant text value =>
      cases value with
      | integer n =>
        simp only [NewArgument.value?, ← ofConstant?_eq]
        cases RetrievalSource.ofConstant? n <;> rfl
      | boolean b => rfl
      | string s => rfl
      | null => rfl

/-! ## The host's answers -/

theorem Call.id_mem_of_variable {call : Call} {v : Variable}
    (h : v ∈ call.declaration.declared) : v.id ∈ call.declaration.nodeIds := by
  rw [FieldDeclaration.nodeIds_eq]
  exact List.mem_append_left _ (List.mem_map_of_mem h)

theorem Call.id_mem_of_argument {call : Call} {e : Expression}
    (h : e ∈ call.declaration.arguments) : e.id ∈ call.declaration.nodeIds := by
  rw [FieldDeclaration.nodeIds_eq]
  exact List.mem_append_right _ (List.mem_map_of_mem h)

/-- Each argument is placed under an id of its own. -/
theorem Call.nodup_ids_zip {call : Call} (distinct : call.declaration.nodeIds.Nodup) :
    ((call.spec.arguments.zip call.declaration.arguments).map (·.2.id)).Nodup := by
  have length : call.declaration.arguments.length = call.spec.arguments.length := by
    rw [declaration, NewField.arguments_placed, length_placedArguments]
  have ids : (call.spec.arguments.zip call.declaration.arguments).map (·.2.id) =
      call.declaration.arguments.map (·.id) := by
    conv_rhs => rw [← List.map_snd_zip length.le, List.map_map]
    rfl
  rw [FieldDeclaration.nodeIds_eq] at distinct
  rw [ids]
  exact distinct.of_append_right

/-- A node belongs to one call. -/
theorem Ledger.call_eq_of_mem_nodeIds {ledger : Ledger} (distinct : ledger.nodeIds.Nodup)
    {call call' : Call} (made : call ∈ ledger.calls) (made' : call' ∈ ledger.calls) {id : NodeId}
    (mem : id ∈ call.declaration.nodeIds) (mem' : id ∈ call'.declaration.nodeIds) :
    call = call' := by
  by_contra other
  have symm : Std.Symm (Function.onFun List.Disjoint fun call : Call => call.declaration.nodeIds) :=
    ⟨fun _ _ disjoint _ mem mem' => disjoint mem' mem⟩
  exact (List.nodup_flatMap.1 distinct).2.forall made made' other mem mem'

namespace Follows

variable {c : Compilation} {ledger : Ledger} (h : c.Follows ledger)
  (distinct : ledger.nodeIds.Nodup) {call : Call} (made : call ∈ ledger.calls)

include h distinct made

/-- The host binds a variable just if the call says so. -/
theorem symbol?_eq {v : Variable} (hv : v ∈ call.declaration.declared) :
    c.facts.facts.symbol? v =
      if call.spec.bound then some ⟨v.name, call.spec.fieldType, call.owner⟩ else none := by
  change c.facts.fields.find? v.id = _
  split
  · next bound =>
    exact (h.find?_fields_iff distinct).2
      ⟨call, made, Call.mem_fields_iff.2 ⟨bound, v, hv, rfl, rfl⟩⟩
  · next unbound =>
    -- A symbol under the id could only come from this very call.
    refine Option.eq_none_iff_forall_ne_some.2 fun symbol found => unbound ?_
    obtain ⟨call', made', noted⟩ := (h.find?_fields_iff distinct).1 found
    obtain ⟨bound, v', hv', same, -⟩ := Call.mem_fields_iff.1 noted
    have mem := Call.id_mem_of_variable hv'
    rw [same] at mem
    rw [Ledger.call_eq_of_mem_nodeIds distinct made made' (Call.id_mem_of_variable hv) mem]
    exact bound

/-- The host folds an argument to its value. -/
theorem constant?_eq {argument : NewArgument} {e : Expression}
    (placed : (argument, e) ∈ call.spec.arguments.zip call.declaration.arguments) :
    c.facts.facts.constant? e = argument.value? := by
  change c.facts.constants.find? e.id = _
  refine Option.ext fun value => ?_
  rw [h.find?_constants_iff distinct]
  constructor
  · rintro ⟨call', made', noted⟩
    -- The id leads back to the call, and within the call to the argument.
    obtain ⟨argument', e', placed', same, known⟩ := Call.mem_constants_iff.1 noted
    have mem := Call.id_mem_of_argument (List.of_mem_zip placed').2
    rw [same] at mem
    obtain rfl := Ledger.call_eq_of_mem_nodeIds distinct made made'
      (Call.id_mem_of_argument (List.of_mem_zip placed).2) mem
    have own := Call.nodup_ids_zip ((List.nodup_flatMap.1 distinct).1 call made)
    obtain ⟨rfl, -⟩ := Prod.mk.inj (List.inj_on_of_nodup_map own placed' placed same)
    exact known
  · intro known
    exact ⟨call, made, Call.mem_constants_iff.2 ⟨argument, e, placed, rfl, known⟩⟩

/-- The variables of a placed declaration under a marker. -/
theorem filterMap_outcome (marker : Attribute) :
    (call.declaration.declared.filterMap fun v => (v.outcome marker c.facts.facts).toOption) =
      if call.spec.bound then
        match (marker.source c.facts.facts).toOption with
        | none => []
        | some source =>
          call.spec.names.map fun name => ⟨name, call.owner, call.spec.fieldType, source⟩
      else [] := by
  have names : call.declaration.declared.map (·.name) = call.spec.names :=
    map_name_placedVariables _ _
  have outcome (v : Variable) (hv : v ∈ call.declaration.declared) :
      (v.outcome marker c.facts.facts).toOption =
        if call.spec.bound then (marker.source c.facts.facts).toOption.map
          fun source => ⟨v.name, call.owner, call.spec.fieldType, source⟩
        else none := by
    rw [Variable.outcome, h.symbol?_eq distinct made hv]
    cases call.spec.bound with
    | false => rfl
    | true => cases marker.source c.facts.facts <;> rfl
  rw [List.filterMap_congr outcome, ← names]
  split
  · cases (marker.source c.facts.facts).toOption <;> simp [Function.comp_def]
  · simp

/-- The variables of a placed declaration become the accessors that the call leads to. -/
theorem resolved_declaration :
    call.declaration.resolved c.facts.facts = call.spec.accessors call.owner := by
  have marker? : call.declaration.marker? =
      (placedAttributes call.start call.spec.attributes).find? fun usage =>
        isMarker usage.name := by
    rw [FieldDeclaration.marker?, Call.declaration, NewField.attributes_placed]
  have placed := find?_placedAttributes call.start call.spec.attributes
  rw [FieldDeclaration.resolved, marker?, NewField.accessors, NewField.marker?]
  cases found : call.spec.attributes.find? fun usage => isMarker usage.name with
  | none =>
    simp only [found] at placed
    simp [placed]
  | some usage =>
    simp only [found] at placed
    obtain ⟨m, first, among⟩ := placed
    have source := source_placed usage m fun argument e pair => by
      refine h.constant?_eq distinct made ?_
      rw [Call.declaration, NewField.arguments_placed]
      exact among pair
    rw [first]
    refine (h.filterMap_outcome distinct made _).trans ?_
    rw [source]
    rfl

end Follows

end Compilation

/-! ## The order within an owner -/

/-- What comes of the items with a key comes in their order, if the key can be told from it. -/
theorem filter_flatMap_of_key {α β κ : Type} [DecidableEq κ] {key : α → κ} {key' : β → κ}
    {f : α → List β} {as : List α} (h : ∀ a ∈ as, ∀ b ∈ f a, key' b = key a) (k : κ) :
    (as.flatMap f).filter (key' · = k) = (as.filter (key · = k)).flatMap f := by
  induction as with
  | nil => rfl
  | cons a as ih =>
    obtain ⟨own, others⟩ := List.forall_mem_cons.1 h
    rw [List.flatMap_cons, List.filter_append, ih others]
    by_cases same : key a = k
    · have all : (f a).filter (key' · = k) = f a :=
        List.filter_eq_self.2 fun b hb => decide_eq_true ((own b hb).trans same)
      simp [same, all]
    · have none : (f a).filter (key' · = k) = [] :=
        List.filter_eq_nil_iff.2 fun b hb hk => same ((own b hb).symm.trans (of_decide_eq_true hk))
      simp [same, none]

namespace OpenFile

open Compilation

theorem fields_file (file : OpenFile) :
    file.file.fields = (held file.types).flatMap fun (_, member) => member.fields := by
  rw [← SourceFile.map_snd_nestedFields, nestedFields_file, List.map_flatMap]
  refine List.flatMap_congr fun (symbol, member) _ => ?_
  change (within symbol.scopes member.nestedFields).map (·.2) = member.fields
  rw [← Member.map_snd_nestedFields, within, List.map_map]
  rfl

section

variable {resolved : FieldDeclaration → List ResolvedField} {id : SymbolId}

/-- The fields that come of a file's declarations stand in the order of the owner's calls. -/
theorem Follows.filter_resolved {file : OpenFile} {entry : FileLedger} (h : file.Follows entry)
    (owned : ∀ call ∈ entry.calls, ∀ field ∈ resolved call.declaration,
      field.owner.id = call.owner.id) :
    (file.file.fields.flatMap resolved).filter (·.owner.id = id) =
      (entry.calls.filter (·.owner.id = id)).flatMap (resolved ·.declaration) := by
  have keyed : ∀ e ∈ held file.types, ∀ field ∈ e.2.fields.flatMap resolved,
      field.owner.id = e.1.id := by
    intro e he field hf
    obtain ⟨call, made, rfl⟩ := List.mem_map.1 (h.perm_held.mem_iff.1 he)
    rw [h.ids call made]
    exact owned call made field (by simpa [Member.fields] using hf)
  rw [fields_file, List.flatMap_assoc]
  refine (filter_flatMap_of_key keyed id).trans ?_
  have own := h.heldBy id
  rw [OpenFile.heldBy] at own
  rw [own, List.flatMap_map]
  exact List.flatMap_congr fun call _ => by simp [Member.fields]

/-- The same for all files. -/
theorem filter_resolved {files : List OpenFile} {entries : List FileLedger}
    (h : List.Forall₂ Follows files entries)
    (owned : ∀ call ∈ entries.flatMap (·.calls), ∀ field ∈ resolved call.declaration,
      field.owner.id = call.owner.id) :
    ((files.flatMap (·.file.fields)).flatMap resolved).filter (·.owner.id = id) =
      ((entries.flatMap (·.calls)).filter (·.owner.id = id)).flatMap (resolved ·.declaration) := by
  induction h with
  | nil => rfl
  | cons follows _ ih =>
    rw [List.flatMap_cons, List.forall_mem_append] at owned
    rw [List.flatMap_cons, List.flatMap_cons, List.flatMap_append, List.filter_append,
      List.filter_append, List.flatMap_append, follows.filter_resolved owned.1, ih owned.2]

end

end OpenFile

/-! ## A pass over the snapshot -/

namespace Compilation

/-- The resolved fields of an owner are those that its calls lead to. -/
theorem filter_fields_after {steps : List Step}
    (h : (steps.map (·.nodeCount)).sum < 2 ^ 32 - 1) (id : SymbolId) :
    let s := (after steps).snapshot
    (resolve (markedFields s.files) s.facts.facts).fields.filter (·.owner.id = id) =
      steps.flatMap (·.accessors id) := by
  intro s
  have follows := follows_after steps
  have resolved (call : Call) (made : call ∈ (Ledger.after steps).calls) :
      call.declaration.resolved s.facts.facts = call.spec.accessors call.owner :=
    follows.resolved_declaration (Ledger.nodup_nodeIds h) made
  have owned : ∀ call ∈ (Ledger.after steps).calls,
      ∀ field ∈ call.declaration.resolved s.facts.facts, field.owner.id = call.owner.id := by
    intro call made field hf
    rw [resolved call made] at hf
    rw [NewField.owner_of_mem_accessors hf]
  have files : s.files.flatMap (·.fields) =
      ((after steps).finished ++ [(after steps).current]).flatMap (·.file.fields) :=
    List.flatMap_map _ _ _
  calc (resolve (markedFields s.files) s.facts.facts).fields.filter (·.owner.id = id)
    _ = ((Ledger.after steps).calls.filter (·.owner.id = id)).flatMap
          (·.declaration.resolved s.facts.facts) := by
      rw [fields_resolve, files]
      exact OpenFile.filter_resolved follows.files owned
    _ = ((Ledger.after steps).calls.filter (·.owner.id = id)).flatMap
          fun call => call.spec.accessors call.owner :=
      List.flatMap_congr fun call hc => resolved call (List.mem_filter.1 hc).1
    _ = steps.flatMap (·.accessors id) := by
      rw [flatMap_accessors, ← Ledger.calls_after, List.filter_map, List.flatMap_map]
      rfl

/-- **From calls to accessors.** After steps that hand out fewer than `2 ^ 32 - 1` nodes, a pass
over the snapshot gives, after the unit that every pass begins with, one unit for each owner's id;
its accessors are those that the calls for the id lead to, in the order of the calls and of the
names in a call, and there is no other. -/
theorem generate_after (steps : List Step) (h : (steps.map (·.nodeCount)).sum < 2 ^ 32 - 1) :
    let s := (after steps).snapshot
    ∃ owned : List (OwnerGroup × String),
      (generate s.files s.facts.facts).units =
        Schema.unit :: owned.map (fun (group, name) => ⟨name, textOf group.lines⟩) ∧
      (owned.map (·.1.owner.id)).Nodup ∧
      (∀ e ∈ owned, e.1.fields.head?.map (·.owner) = some e.1.owner) ∧
      ∀ id, (owned.filter (·.1.owner.id = id)).flatMap (·.1.fields) =
        steps.flatMap (·.accessors id) := by
  intro s
  have groups : (namedGroups s.files s.facts.facts).map (·.1) =
      OwnerGroup.ofFields (resolve (markedFields s.files) s.facts.facts).fields :=
    OwnerGroup.map_fst_named _ _
  have partition := OwnerGroup.stablePartition_ofFields
    (resolve (markedFields s.files) s.facts.facts).fields
  rw [← groups] at partition
  refine ⟨namedGroups s.files s.facts.facts, ?_, ?_, fun e he => ?_, fun id => ?_⟩
  · simp only [generate_eq, OwnerGroup.source, OwnerGroup.text_write]
  · simpa [List.map_map, Function.comp_def] using partition.nodup_ids
  · exact partition.owner e.1 (List.mem_map_of_mem he)
  · rw [← filter_fields_after h id, ← partition.flatMap_fields id, List.filter_map,
      List.flatMap_map]
    rfl

/-- Two symbols have one id, the second of them from elsewhere and in another file, with a call for
another owner in between; neither unbound variables nor a marker without a number lead anywhere. -/
theorem generate_after_interleaved :
    let door : NamedType := ⟨1, "Door", some "Game", []⟩
    let gate : NamedType := ⟨1, "Gate", none, []⟩
    let lamp : NamedType := ⟨9, "Lamp", none, ["House"]⟩
    let body : TypeRef := .named "Body"
    let tooltip : NewAttribute := ⟨"Tooltip", [.nonConstant "text"]⟩
    let steps : List Step := [.topLevel (some "Game") "Door",
      .field door ⟨body, ["_frame"], [.marker ⟨1⟩], true⟩,
      .field lamp ⟨body, ["_bulb"], [.marker ⟨2⟩, .marker ⟨4⟩], true⟩, .file "Second.cs",
      .field gate ⟨.array body, ["_left", "_right"], [tooltip, .marker ⟨4⟩], true⟩,
      .field door ⟨body, ["_lost"], [.marker ⟨1⟩], false⟩,
      .field door ⟨body, ["_odd"], [⟨"FromHierarchy", [.constant "true" (.boolean true)]⟩], true⟩]
    let s := (after steps).snapshot
    (steps.map (·.nodeCount)).sum < 2 ^ 32 - 1 ∧ ∃ owned : List (OwnerGroup × String),
      (generate s.files s.facts.facts).units =
        Schema.unit :: owned.map (fun (group, name) => ⟨name, textOf group.lines⟩) ∧
      (owned.filter (·.1.owner.id = 1)).flatMap (·.1.fields) =
        [⟨"_frame", door, body, ⟨1⟩⟩, ⟨"_left", gate, .array body, ⟨4⟩⟩,
          ⟨"_right", gate, .array body, ⟨4⟩⟩] ∧
      (owned.filter (·.1.owner.id = 9)).flatMap (·.1.fields) = [⟨"_bulb", lamp, body, ⟨2⟩⟩] := by
  intro door gate lamp body tooltip steps s
  have few : (steps.map (·.nodeCount)).sum < 2 ^ 32 - 1 := by decide
  obtain ⟨owned, units, -, -, fields⟩ := generate_after steps few
  exact ⟨few, owned, units, (fields 1).trans (by decide +kernel),
    (fields 9).trans (by decide +kernel)⟩

end Compilation

end HierarchyAccessors
