import HierarchyAccessors.Compilation
import Mathlib.Algebra.Ring.Nat
import Mathlib.Data.List.Nodup
import Mathlib.Data.List.Induction
import Mathlib.Data.List.Flatten
import Mathlib.Data.List.Perm.Basic

/-!
# The ledger of a compilation in the making

What a compilation is asked to add comes as a list of steps. A ledger of the steps is kept beside
the compilation: for each file the symbols that are declared in it, in order, and the calls for
field declarations, each with the number of its first node. From that number on, a call numbers the
arguments of its attributes and then its variables, and `NewField.placed` is the declaration with
these numbers as ids.

The numbers of all calls are those from 1 on, each once (`Ledger.numbers_after`). As long as they
fit into an id, no two nodes get the same (`Ledger.nodup_nodeIds`). What is noted about a node is
noted under its own id, so the notes do not overwrite each other either.
-/

namespace HierarchyAccessors

/-! ## Placed declarations -/

/-- The arguments with the ids from `n` on. -/
def placedArguments (n : Nat) (arguments : List NewArgument) : List Expression :=
  (arguments.zipIdx n).map fun (argument, i) => ⟨.ofNat i, argument.text⟩

/-- The attributes, with the ids from `n` on for their arguments. -/
def placedAttributes (n : Nat) : List NewAttribute → List Attribute
  | [] => []
  | spec :: specs =>
    ⟨spec.name, placedArguments n spec.arguments⟩ ::
      placedAttributes (n + spec.arguments.length) specs

/-- The variables with the ids from `n` on. -/
def placedVariables (n : Nat) (names : List String) : List Variable :=
  (names.zipIdx n).map fun (name, i) => ⟨.ofNat i, name⟩

namespace NewField

/-- The arguments of all attributes. -/
def arguments (spec : NewField) : List NewArgument :=
  spec.attributes.flatMap (·.arguments)

/-- How many nodes of the declaration have an id. -/
def nodeCount (spec : NewField) : Nat :=
  spec.arguments.length + spec.names.length

/-- The declaration with the ids from `n` on, first those of the arguments, then those of the
variables. -/
def placed (spec : NewField) (n : Nat) : FieldDeclaration where
  attributeLists := (placedAttributes n spec.attributes).map ([·])
  writtenType := spec.fieldType.display
  declared := placedVariables (n + spec.arguments.length) spec.names

end NewField

/-- The arguments of all attributes of the declaration. -/
def FieldDeclaration.arguments (field : FieldDeclaration) : List Expression :=
  field.attributes.flatMap (·.arguments)

theorem FieldDeclaration.nodeIds_eq (field : FieldDeclaration) :
    field.nodeIds = field.declared.map (·.id) ++ field.arguments.map (·.id) := by
  rw [nodeIds, arguments, List.map_flatMap]

theorem map_id_placedArguments (n : Nat) (arguments : List NewArgument) :
    (placedArguments n arguments).map (·.id) = (List.range' n arguments.length).map .ofNat := by
  rw [← List.zipIdx_map_snd, placedArguments, List.map_map, List.map_map]
  rfl

theorem map_id_placedVariables (n : Nat) (names : List String) :
    (placedVariables n names).map (·.id) = (List.range' n names.length).map .ofNat := by
  rw [← List.zipIdx_map_snd, placedVariables, List.map_map, List.map_map]
  rfl

theorem map_name_placedVariables (n : Nat) (names : List String) :
    (placedVariables n names).map (·.name) = names := by
  rw [placedVariables, List.map_map]
  exact List.zipIdx_map_fst n names

theorem length_placedArguments (n : Nat) (arguments : List NewArgument) :
    (placedArguments n arguments).length = arguments.length := by
  rw [placedArguments, List.length_map, List.length_zipIdx]

theorem placedArguments_append (n : Nat) (arguments more : List NewArgument) :
    placedArguments n (arguments ++ more) =
      placedArguments n arguments ++ placedArguments (n + arguments.length) more := by
  rw [placedArguments, List.zipIdx_append, List.map_append]
  rfl

theorem flatMap_arguments_placedAttributes (n : Nat) (specs : List NewAttribute) :
    (placedAttributes n specs).flatMap (·.arguments) =
      placedArguments n (specs.flatMap (·.arguments)) := by
  induction specs generalizing n with
  | nil => rfl
  | cons spec specs ih =>
    rw [placedAttributes, List.flatMap_cons, List.flatMap_cons, placedArguments_append, ih]

namespace NewField

@[simp] theorem attributes_placed (spec : NewField) (n : Nat) :
    (spec.placed n).attributes = placedAttributes n spec.attributes := by
  simp [placed, FieldDeclaration.attributes, List.flatten_eq_flatMap, List.flatMap_map]

theorem arguments_placed (spec : NewField) (n : Nat) :
    (spec.placed n).arguments = placedArguments n spec.arguments := by
  rw [FieldDeclaration.arguments, attributes_placed, flatMap_arguments_placedAttributes, arguments]

/-- The ids are those of consecutive numbers. -/
theorem nodeIds_placed_perm (spec : NewField) (n : Nat) :
    (spec.placed n).nodeIds.Perm ((List.range' n spec.nodeCount).map .ofNat) := by
  have declared : (spec.placed n).declared.map (·.id) =
      (List.range' (n + spec.arguments.length) spec.names.length).map .ofNat :=
    map_id_placedVariables _ _
  rw [FieldDeclaration.nodeIds_eq, declared, arguments_placed, map_id_placedArguments, nodeCount,
    ← List.range'_append_1, List.map_append]
  exact List.perm_append_comm

end NewField

namespace Compilation

/-! ## Steps -/

/-- What a compilation in the making can be asked for. -/
inductive Step
  | file (path : String)
  | topLevel (namespaceName : Option String) (name : String)
  | nested (outer : NamedType) (name : String)
  /-- The owner is any symbol, whether it was declared here or not. -/
  | field (owner : NamedType) (spec : NewField)

namespace Step

/-- How many nodes are handed out. -/
def nodeCount : Step → Nat
  | field _ spec => spec.nodeCount
  | _ => 0

/-- The owner and the declaration that are called for. -/
def call? : Step → Option (NamedType × NewField)
  | field owner spec => some (owner, spec)
  | _ => none

end Step

def step (c : Compilation) : Step → Compilation
  | .file path => c.file path
  | .topLevel namespaceName name => (c.topLevel namespaceName name).2
  | .nested outer name => (c.nested outer name).2
  | .field owner spec => c.field owner spec

/-- The compilation after the steps. -/
def after (steps : List Step) : Compilation :=
  steps.foldl step empty

theorem after_append_singleton (steps : List Step) (s : Step) :
    after (steps ++ [s]) = (after steps).step s := by
  simp [after]

/-! ## Ledgers -/

/-- A call for a field declaration. -/
structure Call where
  owner : NamedType
  spec : NewField
  /-- The number of the first node. -/
  start : Nat
  /-- The symbol with the owner's id that was declared first in the file. -/
  declaredAs : NamedType

/-- The declaration that the call is answered with. -/
def Call.declaration (call : Call) : FieldDeclaration :=
  call.spec.placed call.start

/-- The symbol with the id that was declared first. -/
def first? (symbols : List NamedType) (id : SymbolId) : Option NamedType :=
  symbols.find? (·.id = id)

theorem first?_append (symbols more : List NamedType) (id : SymbolId) :
    first? (symbols ++ more) id = (first? symbols id).or (first? more id) :=
  List.find?_append

/-- What was declared in a file, and the calls. -/
structure FileLedger where
  path : String
  symbols : List NamedType
  calls : List Call

namespace FileLedger

def declare (file : FileLedger) (symbol : NamedType) : FileLedger :=
  { file with symbols := file.symbols ++ [symbol] }

/-- The symbol with the owner's id that was declared first, or else the owner, who is declared
now. -/
def symbolOf (file : FileLedger) (owner : NamedType) : NamedType :=
  (first? file.symbols owner.id).getD owner

theorem id_symbolOf (file : FileLedger) (owner : NamedType) :
    (file.symbolOf owner).id = owner.id := by
  unfold symbolOf
  cases found : first? file.symbols owner.id with
  | none => rfl
  | some symbol => simpa using List.find?_some found

end FileLedger

structure Ledger where
  finished : List FileLedger
  current : FileLedger
  /-- The number of the next node. -/
  nextNode : Nat
  nextSymbol : SymbolId

namespace Ledger

def empty : Ledger :=
  ⟨[], ⟨"Source0.cs", [], []⟩, 1, 1⟩

def files (ledger : Ledger) : List FileLedger :=
  ledger.finished ++ [ledger.current]

def calls (ledger : Ledger) : List Call :=
  ledger.files.flatMap (·.calls)

/-- The ids of the nodes of all declarations. -/
def nodeIds (ledger : Ledger) : List NodeId :=
  ledger.calls.flatMap (·.declaration.nodeIds)

def declare (ledger : Ledger) (name : String) (namespaceName : Option String)
    (containingTypes : List String) : Ledger :=
  { ledger with
    current := ledger.current.declare ⟨ledger.nextSymbol, name, namespaceName, containingTypes⟩
    nextSymbol := ledger.nextSymbol + 1 }

/-- A call for a declaration of the owner. -/
def call (ledger : Ledger) (owner : NamedType) (spec : NewField) : Call :=
  ⟨owner, spec, ledger.nextNode, ledger.current.symbolOf owner⟩

def step (ledger : Ledger) : Step → Ledger
  | .file path =>
    { ledger with finished := ledger.finished ++ [ledger.current], current := ⟨path, [], []⟩ }
  | .topLevel namespaceName name => ledger.declare name namespaceName []
  | .nested outer name =>
    ledger.declare name outer.namespaceName (outer.containingTypes ++ [outer.name])
  | .field owner spec =>
    { ledger with
      current :=
        { ledger.current.declare owner with
          calls := ledger.current.calls ++ [ledger.call owner spec] }
      nextNode := ledger.nextNode + spec.nodeCount }

/-- The ledger of the steps. -/
def after (steps : List Step) : Ledger :=
  steps.foldl step empty

theorem after_append_singleton (steps : List Step) (s : Step) :
    after (steps ++ [s]) = (after steps).step s := by
  simp [after]

/-! ## The calls of a ledger -/

theorem calls_declare (ledger : Ledger) (name : String) (namespaceName : Option String)
    (containingTypes : List String) :
    (ledger.declare name namespaceName containingTypes).calls = ledger.calls := by
  simp [declare, FileLedger.declare, calls, files]

theorem calls_file (ledger : Ledger) (path : String) :
    (ledger.step (.file path)).calls = ledger.calls := by
  simp [step, calls, files]

theorem calls_field (ledger : Ledger) (owner : NamedType) (spec : NewField) :
    (ledger.step (.field owner spec)).calls = ledger.calls ++ [ledger.call owner spec] := by
  simp [step, FileLedger.declare, calls, files]

theorem calls_step (ledger : Ledger) (s : Step) :
    (ledger.step s).calls =
      ledger.calls ++ s.call?.toList.map fun (owner, spec) => ledger.call owner spec := by
  cases s with
  | file path => exact (ledger.calls_file path).trans (List.append_nil _).symm
  | topLevel namespaceName name =>
    exact (ledger.calls_declare name namespaceName []).trans (List.append_nil _).symm
  | nested outer name => exact (ledger.calls_declare name _ _).trans (List.append_nil _).symm
  | field owner spec => exact ledger.calls_field owner spec

theorem nextNode_step (ledger : Ledger) (s : Step) :
    (ledger.step s).nextNode = ledger.nextNode + s.nodeCount := by
  cases s <;> rfl

/-- The calls are those of the steps. -/
theorem calls_after (steps : List Step) :
    (after steps).calls.map (fun call => (call.owner, call.spec)) = steps.filterMap (·.call?) := by
  induction steps using List.reverseRecOn with
  | nil => rfl
  | append_singleton steps s ih =>
    rw [after_append_singleton, calls_step, List.map_append, ih, List.filterMap_append]
    cases s <;> rfl

theorem nextNode_after (steps : List Step) :
    (after steps).nextNode = 1 + (steps.map (·.nodeCount)).sum := by
  induction steps using List.reverseRecOn with
  | nil => rfl
  | append_singleton steps s ih =>
    rw [after_append_singleton, nextNode_step, ih, List.map_append, List.sum_append]
    simp [Nat.add_assoc]

/-- The numbers of all nodes are consecutive. -/
theorem numbers_after (steps : List Step) :
    (after steps).calls.flatMap (fun call => List.range' call.start call.spec.nodeCount) =
      List.range' 1 (steps.map (·.nodeCount)).sum := by
  induction steps using List.reverseRecOn with
  | nil => rfl
  | append_singleton steps s ih =>
    rw [after_append_singleton, calls_step, List.flatMap_append, ih, List.map_append,
      List.sum_append, ← List.range'_append_1, ← nextNode_after]
    congr 1
    cases s <;> simp [Step.call?, Step.nodeCount, call]

theorem nodeIds_perm (steps : List Step) :
    (after steps).nodeIds.Perm
      ((List.range' 1 (steps.map (·.nodeCount)).sum).map .ofNat) := by
  rw [← numbers_after, List.map_flatMap]
  exact List.Perm.flatMap_left _ fun call _ => call.spec.nodeIds_placed_perm call.start

/-- As long as the numbers fit into an id, no two nodes have the same. -/
theorem nodup_nodeIds {steps : List Step} (h : (steps.map (·.nodeCount)).sum < 2 ^ 32 - 1) :
    (after steps).nodeIds.Nodup := by
  rw [(nodeIds_perm steps).nodup_iff]
  refine List.Nodup.map_on (fun i hi j hj same => ?_) List.nodup_range'
  rw [List.mem_range'_1] at hi hj
  have small (k : Nat) (hk : k < 1 + (steps.map (·.nodeCount)).sum) :
      (UInt32.ofNat k).toNat = k :=
    UInt32.toNat_ofNat_of_lt' (show k < 2 ^ 32 by omega)
  rw [← small i hi.2, ← small j hj.2, same]

end Ledger

/-! ## What is noted -/

/-- The symbols of variables. -/
def notedFields (owner : NamedType) (fieldType : TypeRef) (declared : List Variable) :
    List (NodeId × FieldBinding) :=
  declared.map fun v => (v.id, ⟨v.name, fieldType, owner⟩)

/-- The constants among the arguments. -/
def notedConstants (arguments : List NewArgument) (placed : List Expression) :
    List (NodeId × Constant) :=
  (arguments.zip placed).filterMap fun (argument, e) => argument.value?.map (e.id, ·)

theorem notedConstants_cons (argument : NewArgument) (arguments : List NewArgument)
    (e : Expression) (placed : List Expression) :
    notedConstants (argument :: arguments) (e :: placed) =
      argument.value?.toList.map (e.id, ·) ++ notedConstants arguments placed := by
  unfold notedConstants
  cases known : argument.value? <;> simp [known]

theorem notedConstants_append (n : Nat) (arguments more : List NewArgument)
    (placed : List Expression) :
    notedConstants (arguments ++ more) (placedArguments n arguments ++ placed) =
      notedConstants arguments (placedArguments n arguments) ++ notedConstants more placed := by
  rw [notedConstants, List.zip_append (length_placedArguments n arguments).symm,
    List.filterMap_append]
  rfl

theorem ids_notedConstants_sublist (arguments : List NewArgument) (placed : List Expression) :
    ((notedConstants arguments placed).map (·.1)).Sublist (placed.map (·.id)) := by
  induction arguments generalizing placed with
  | nil => exact List.nil_sublist _
  | cons argument arguments ih =>
    cases placed with
    | nil => exact List.Sublist.refl _
    | cons e placed =>
      rw [notedConstants_cons]
      cases argument.value? with
      | none => exact (ih placed).cons _
      | some value => exact (ih placed).cons_cons _

namespace Call

/-- The symbols that the call has the host know. -/
def fields (call : Call) : List (NodeId × FieldBinding) :=
  if call.spec.bound then notedFields call.owner call.spec.fieldType call.declaration.declared
  else []

/-- The constants that the call has the host know. -/
def constants (call : Call) : List (NodeId × Constant) :=
  notedConstants call.spec.arguments call.declaration.arguments

theorem mem_fields_iff {call : Call} {id : NodeId} {symbol : FieldBinding} :
    (id, symbol) ∈ call.fields ↔ call.spec.bound = true ∧ ∃ v ∈ call.declaration.declared,
      v.id = id ∧ symbol = ⟨v.name, call.spec.fieldType, call.owner⟩ := by
  unfold fields notedFields
  split
  · next bound =>
    simp only [List.mem_map, Prod.mk.injEq, bound, true_and]
    exact exists_congr fun v => and_congr_right fun _ => and_congr_right fun _ => eq_comm
  · next unbound => simp [unbound]

theorem mem_constants_iff {call : Call} {id : NodeId} {value : Constant} :
    (id, value) ∈ call.constants ↔
      ∃ argument e, (argument, e) ∈ call.spec.arguments.zip call.declaration.arguments ∧
        e.id = id ∧ argument.value? = some value := by
  simp only [constants, notedConstants, List.mem_filterMap, Prod.exists, Option.map_eq_some_iff,
    Prod.mk.injEq]
  constructor
  · rintro ⟨argument, e, found, _, known, rfl, rfl⟩
    exact ⟨argument, e, found, rfl, known⟩
  · rintro ⟨argument, e, found, rfl, known⟩
    exact ⟨argument, e, found, value, known, rfl, rfl⟩

/-- A symbol is noted under the id of a variable. -/
theorem ids_fields_sublist (call : Call) :
    (call.fields.map (·.1)).Sublist call.declaration.nodeIds := by
  rw [FieldDeclaration.nodeIds_eq]
  refine List.Sublist.trans ?_ (List.sublist_append_left _ _)
  unfold fields notedFields
  split
  · rw [List.map_map]
    exact List.Sublist.refl _
  · exact List.nil_sublist _

/-- A constant is noted under the id of an argument. -/
theorem ids_constants_sublist (call : Call) :
    (call.constants.map (·.1)).Sublist call.declaration.nodeIds := by
  rw [FieldDeclaration.nodeIds_eq]
  exact (ids_notedConstants_sublist _ _).trans (List.sublist_append_right _ _)

end Call

end Compilation

end HierarchyAccessors
