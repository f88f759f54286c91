import HierarchyAccessors.Proofs.Compilation.Files
import HierarchyAccessors.Proofs.Compilation.Placing
import HierarchyAccessors.Proofs.Snapshot.RoundTrip
import Mathlib.Data.List.Forall2

/-!
# What a compilation looks like after any steps

**Theorem (`snapshot_after`).** After any steps that hand out fewer than `2 ^ 32 - 1` nodes, the
compilation can be seen as a snapshot without repeated ids. The tables hold what was noted about the
calls: a symbol under the id of each variable of a call whose variables are bound, a constant under
the id of each constant argument, and nothing else. The tree of each file has the declarations of
the calls that were made while the file was the current one, each once, inside the scopes of the
symbol with the owner's id that was declared first in the file.

The compilation is compared with the ledger of the same steps. `Follows` is the invariant, one step
keeps it (`Follows.step`), and so do all (`follows_after`).
-/

namespace HierarchyAccessors.Compilation

/-! ## The invariant -/

/-- A ledger for the steps that led to a compilation. -/
structure Follows (c : Compilation) (ledger : Ledger) : Prop where
  finished : List.Forall₂ OpenFile.Follows c.finished ledger.finished
  current : c.current.Follows ledger.current
  fields : c.facts.fields = .ofList (ledger.calls.flatMap (·.fields))
  constants : c.facts.constants = .ofList (ledger.calls.flatMap (·.constants))
  nextNode : c.nextNode = .ofNat ledger.nextNode
  nextSymbol : c.nextSymbol = ledger.nextSymbol

namespace Follows

variable {c : Compilation} {ledger : Ledger}

theorem empty : Follows empty .empty where
  finished := .nil
  current := .empty _
  fields := rfl
  constants := rfl
  nextNode := rfl
  nextSymbol := rfl

theorem file (h : c.Follows ledger) (path : String) :
    Follows (c.file path) (ledger.step (.file path)) where
  finished := List.rel_append h.finished (.cons h.current .nil)
  current := .empty path
  fields := by
    rw [Ledger.calls_file]
    exact h.fields
  constants := by
    rw [Ledger.calls_file]
    exact h.constants
  nextNode := h.nextNode
  nextSymbol := h.nextSymbol

theorem addType (h : c.Follows ledger) (name : String) (namespaceName : Option String)
    (containingTypes : List String) :
    Follows (c.addType name namespaceName containingTypes).2
      (ledger.declare name namespaceName containingTypes) where
  finished := h.finished
  current := by
    rw [Ledger.declare, ← h.nextSymbol]
    exact h.current.declare _
  fields := by
    rw [Ledger.calls_declare]
    exact h.fields
  constants := by
    rw [Ledger.calls_declare]
    exact h.constants
  nextNode := h.nextNode
  nextSymbol := congrArg (· + 1) h.nextSymbol

/-- The declaration is placed as the call in the ledger says, and added to a type of the file. -/
theorem field_eq (h : c.Follows ledger) (owner : NamedType) (spec : NewField) :
    c.field owner spec =
      let call := ledger.call owner spec
      let types := OpenFile.addMember owner (.fieldDecl call.declaration) c.current.types
      { c.note spec.nodeCount call.fields call.constants with
        current := { c.current with types } } := by
  have placed : (placeField owner spec).run c = _ :=
    run_placeField (ledger.call owner spec) h.nextNode
  rw [Compilation.field, placed]
  rfl

theorem field (h : c.Follows ledger) (owner : NamedType) (spec : NewField) :
    Follows (c.field owner spec) (ledger.step (.field owner spec)) := by
  rw [h.field_eq owner spec]
  exact {
    finished := h.finished
    current := h.current.addMember (ledger.call owner spec) rfl
    fields := by
      rw [Ledger.calls_field, List.flatMap_append, List.flatMap_singleton, IdTable.ofList_append,
        ← h.fields]
      rfl
    constants := by
      rw [Ledger.calls_field, List.flatMap_append, List.flatMap_singleton, IdTable.ofList_append,
        ← h.constants]
      rfl
    nextNode := nextNode_note h.nextNode spec.nodeCount [] []
    nextSymbol := h.nextSymbol }

theorem step (h : c.Follows ledger) (s : Step) : Follows (c.step s) (ledger.step s) := by
  cases s with
  | file path => exact h.file path
  | topLevel namespaceName name => exact h.addType name namespaceName []
  | nested outer name => exact h.addType name _ _
  | field owner spec => exact h.field owner spec

end Follows

theorem follows_after (steps : List Step) : Follows (after steps) (Ledger.after steps) := by
  induction steps using List.reverseRecOn with
  | nil => exact .empty
  | append_singleton steps s ih =>
    rw [after_append_singleton, Ledger.after_append_singleton]
    exact ih.step s

/-! ## The trees -/

namespace Follows

variable {c : Compilation} {ledger : Ledger}

theorem files (h : c.Follows ledger) :
    List.Forall₂ OpenFile.Follows (c.finished ++ [c.current]) ledger.files :=
  List.rel_append h.finished (.cons h.current .nil)

/-- The trees have the declarations of the calls. -/
theorem perm_fields (h : c.Follows ledger) :
    (c.snapshot.files.flatMap (·.fields)).Perm (ledger.calls.map (·.declaration)) := by
  have trees : List.Forall₂ List.Perm
      ((c.finished ++ [c.current]).map fun file => file.file.fields)
      (ledger.files.map fun entry => entry.calls.map (·.declaration)) := by
    rw [List.forall₂_map_left_iff, List.forall₂_map_right_iff]
    refine h.files.imp fun file entry follows => ?_
    rw [← SourceFile.map_snd_nestedFields]
    simpa [Function.comp_def] using follows.perm_nestedFields.map (·.2)
  have all := List.Perm.flatten_congr trees
  rw [← List.flatMap_def, ← List.flatMap_def] at all
  rw [snapshot, List.flatMap_map, Ledger.calls, List.map_flatMap]
  exact all

theorem perm_nodeIds (h : c.Follows ledger) :
    (c.snapshot.nodeIds.map (·.1)).Perm ledger.nodeIds := by
  have ids : c.snapshot.nodeIds.map (·.1) =
      (c.snapshot.files.flatMap (·.fields)).flatMap (·.nodeIds) := by
    simp [Snapshot.nodeIds, List.map_flatMap, List.flatMap_assoc, Function.comp_def]
  have calls := h.perm_fields.flatMap_right (·.nodeIds)
  rw [List.flatMap_map] at calls
  rw [ids]
  exact calls

/-! ## The tables -/

theorem nodup_notes {α : Type} {notes : Call → List (NodeId × α)}
    (distinct : ledger.nodeIds.Nodup)
    (ids : ∀ call, ((notes call).map (·.1)).Sublist call.declaration.nodeIds) :
    ((ledger.calls.flatMap notes).map (·.1)).Nodup := by
  rw [List.map_flatMap]
  exact distinct.sublist (List.Sublist.flatMap_right _ fun call _ => ids call)

/-- A symbol stands under an id just if a call has noted it. -/
theorem find?_fields_iff (h : c.Follows ledger)
    (distinct : ledger.nodeIds.Nodup) {id : NodeId}
    {symbol : FieldBinding} :
    c.facts.fields.find? id = some symbol ↔ ∃ call ∈ ledger.calls, (id, symbol) ∈ call.fields := by
  rw [h.fields, IdTable.find?_ofList_eq_some_iff (nodup_notes distinct Call.ids_fields_sublist),
    List.mem_flatMap]

/-- A constant stands under an id just if a call has noted it. -/
theorem find?_constants_iff (h : c.Follows ledger)
    (distinct : ledger.nodeIds.Nodup) {id : NodeId}
    {value : Constant} :
    c.facts.constants.find? id = some value ↔
      ∃ call ∈ ledger.calls, (id, value) ∈ call.constants := by
  rw [h.constants,
    IdTable.find?_ofList_eq_some_iff (nodup_notes distinct Call.ids_constants_sublist),
    List.mem_flatMap]

end Follows

/-! ## The snapshot -/

/-- **The layout of a compilation.** After steps that hand out fewer than `2 ^ 32 - 1` nodes, no id
stands twice; the tables hold the symbol of every bound variable and the value of every constant
argument under their ids and nothing else; and the tree of each file has the declarations that were
called for while it was the current file, each once and inside the scopes of the symbol with the
owner's id that was declared first in the file. -/
theorem snapshot_after (steps : List Step) (h : (steps.map (·.nodeCount)).sum < 2 ^ 32 - 1) :
    let s := (after steps).snapshot
    let ledger := Ledger.after steps
    ledger.calls.map (fun call => (call.owner, call.spec)) = steps.filterMap (·.call?) ∧
    (s.nodeIds.map (·.1)).Nodup ∧ s.repeated? = none ∧
    (∀ id symbol, s.facts.fields.find? id = some symbol ↔
      ∃ call ∈ ledger.calls, call.spec.bound = true ∧ ∃ v ∈ call.declaration.declared,
        v.id = id ∧ symbol = ⟨v.name, call.spec.fieldType, call.owner⟩) ∧
    (∀ id value, s.facts.constants.find? id = some value ↔
      ∃ call ∈ ledger.calls, ∃ argument e,
        (argument, e) ∈ call.spec.arguments.zip call.declaration.arguments ∧
        e.id = id ∧ argument.value? = some value) ∧
    List.Forall₂ (fun file entry => file.path = entry.path ∧
      file.nestedFields.Perm (entry.calls.map fun call =>
        (call.declaredAs.scopes, call.declaration))) s.files ledger.files := by
  intro s ledger
  have follows : (after steps).Follows ledger := follows_after steps
  have distinct := Ledger.nodup_nodeIds h
  have nodup : (s.nodeIds.map (·.1)).Nodup := follows.perm_nodeIds.nodup_iff.2 distinct
  refine ⟨Ledger.calls_after steps, nodup, (Snapshot.repeated?_eq_none_iff s).2 nodup,
    ?fields, ?constants, ?trees⟩
  case fields =>
    intro id symbol
    refine (follows.find?_fields_iff distinct).trans ?_
    exact exists_congr fun call => and_congr_right fun _ => Call.mem_fields_iff
  case constants =>
    intro id value
    refine (follows.find?_constants_iff distinct).trans ?_
    exact exists_congr fun call => and_congr_right fun _ => Call.mem_constants_iff
  case trees =>
    refine List.forall₂_map_left_iff.2 ?_
    exact follows.files.imp fun file entry follows => ⟨follows.path, follows.perm_nestedFields⟩

/-- A symbol from elsewhere has the id that a nested type gets later, so the members of that type
stand under its name; a type is declared once more in the second file, where the variable is not
bound. -/
theorem snapshot_after_across_files :
    let door : NamedType := ⟨1, "Door", some "Game", []⟩
    let stray : NamedType := ⟨2, "Stray", none, ["Outer"]⟩
    let lock : NamedType := ⟨2, "Lock", some "Game", ["Door"]⟩
    let hinge : NewField := ⟨.named "Hinge", ["_hinge"], [], true⟩
    let bolts : NewField := ⟨.named "Bolt", ["_left", "_right"],
      [⟨"FromHierarchy", [.constant "Self" (.integer 1), .nonConstant "x"]⟩], true⟩
    let pane : NewField :=
      ⟨.named "Pane", ["_pane"], [⟨"Range", [.constant "7" (.integer 7)]⟩], false⟩
    let steps : List Step := [.topLevel (some "Game") "Door", .field stray hinge,
      .nested door "Lock", .field lock bolts, .file "Second.cs", .field door pane]
    let s := (after steps).snapshot
    (steps.map (·.nodeCount)).sum < 2 ^ 32 - 1 ∧ s.repeated? = none ∧
      s.facts.fields.find? 5 = some ⟨"_right", .named "Bolt", lock⟩ ∧
      s.facts.fields.find? 7 = none ∧ s.facts.constants.find? 6 = some (.integer 7) ∧
      s.facts.constants.find? 3 = none ∧
      ∃ first second, s.files = [first, second] ∧
        first.nestedFields.Perm
          [([.inType "Outer", .inType "Stray"], ⟨[], "Hinge", [⟨1, "_hinge"⟩]⟩),
            ([.inType "Outer", .inType "Stray"],
              ⟨[[⟨"FromHierarchy", [⟨2, "Self"⟩, ⟨3, "x"⟩]⟩]], "Bolt",
                [⟨4, "_left"⟩, ⟨5, "_right"⟩]⟩)] ∧
        second.path = "Second.cs" ∧ second.nestedFields.Perm
          [([.inNamespace "Game", .inType "Door"],
            ⟨[[⟨"Range", [⟨6, "7"⟩]⟩]], "Pane", [⟨7, "_pane"⟩]⟩)] := by
  intro door stray lock hinge bolts pane steps s
  have few : (steps.map (·.nodeCount)).sum < 2 ^ 32 - 1 := by decide
  obtain ⟨-, -, distinct, fields, constants, trees⟩ := snapshot_after steps few
  let calls : List Call :=
    [⟨stray, hinge, 1, stray⟩, ⟨lock, bolts, 2, stray⟩, ⟨door, pane, 6, door⟩]
  have called : (Ledger.after steps).calls = calls := rfl
  rw [called] at fields constants
  refine ⟨few, distinct, (fields _ _).2 ?_, ?_, (constants _ _).2 ?_, ?_, ?_⟩
  · exact ⟨⟨lock, bolts, 2, stray⟩, by simp [calls], rfl, ⟨5, "_right"⟩, .tail _ (.head _), rfl,
      rfl⟩
  · refine Option.eq_none_iff_forall_ne_some.2 fun symbol found => ?_
    obtain ⟨call, made, bound, v, declared, same, -⟩ := (fields _ _).1 found
    have others : ∀ call ∈ calls, call.spec.bound = true →
        ∀ v ∈ call.declaration.declared, v.id ≠ 7 := by decide
    exact others call made bound v declared same
  · exact ⟨⟨door, pane, 6, door⟩, by simp [calls], .constant "7" (.integer 7), ⟨6, "7"⟩,
      .head _, rfl, rfl⟩
  · refine Option.eq_none_iff_forall_ne_some.2 fun value found => ?_
    obtain ⟨call, made, argument, e, placed, same, known⟩ := (constants _ _).1 found
    have unknown : ∀ call ∈ calls, ∀ pair ∈ call.spec.arguments.zip call.declaration.arguments,
        pair.2.id = 3 → pair.1.value? = none := by decide
    exact Option.some_ne_none value (known.symm.trans (unknown call made _ placed same))
  · cases trees with
    | cons first trees =>
      cases trees with
      | cons second trees =>
        cases trees
        exact ⟨_, _, rfl, first.2, second.1, second.2⟩

end HierarchyAccessors.Compilation
