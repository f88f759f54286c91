import HierarchyAccessors.Proofs.Compilation.Ledger

/-!
# Placing a declaration

To place a declaration, a compilation hands out ids one by one and notes facts as it goes. Here the
same is said at once: `Compilation.note` hands out a number of ids and notes lists of facts, and two
such notes in a row are one (`note_note`). `run_placeField` says that the declaration which is
placed is the one of the ledger, and that the compilation has noted what the ledger says and is
otherwise as it was.
-/

namespace HierarchyAccessors

/-! ## Tables -/

namespace IdTable

variable {α : Type}

/-- Puts the entries in one after the other. -/
def insertAll (table : IdTable α) (entries : List (NodeId × α)) : IdTable α :=
  entries.foldl (fun table e => table.insert e.1 e.2) table

theorem insertAll_append (table : IdTable α) (entries more : List (NodeId × α)) :
    table.insertAll (entries ++ more) = (table.insertAll entries).insertAll more :=
  List.foldl_append

theorem ofList_append (entries more : List (NodeId × α)) :
    ofList (entries ++ more) = (ofList entries).insertAll more :=
  List.foldl_append

/-- Entries under distinct ids do not overwrite each other. -/
theorem find?_ofList_eq_some_iff {entries : List (NodeId × α)} (h : (entries.map (·.1)).Nodup)
    {id : NodeId} {a : α} : (ofList entries).find? id = some a ↔ (id, a) ∈ entries := by
  induction entries using List.reverseRecOn with
  | nil => simp [ofList, find?, empty]
  | append_singleton entries e ih =>
    obtain ⟨id', a'⟩ := e
    have last : ofList (entries ++ [(id', a')]) = (ofList entries).insert id' a' :=
      ofList_append entries [(id', a')]
    rw [List.map_append, List.nodup_append] at h
    rw [last, find?_insert, List.mem_append, List.mem_singleton, Prod.mk.injEq]
    by_cases same : id = id'
    · have fresh : (id, a) ∉ entries := fun old =>
        h.2.2 id (List.mem_map_of_mem old) id' (List.mem_singleton_self _) same
      simp [same ▸ fresh, same, eq_comm]
    · simp [same, ih h.1]

end IdTable

namespace Compilation

/-! ## Notes -/

/-- The compilation after handing out `count` nodes and noting facts. -/
def note (c : Compilation) (count : Nat) (fields : List (NodeId × FieldBinding))
    (constants : List (NodeId × Constant)) : Compilation :=
  { c with
    facts := ⟨c.facts.fields.insertAll fields, c.facts.constants.insertAll constants⟩
    nextNode := c.nextNode + .ofNat count }

theorem note_zero (c : Compilation) : c.note 0 [] [] = c := by
  simp [note, IdTable.insertAll]

theorem note_note (c : Compilation) (count more : Nat)
    (fields fields' : List (NodeId × FieldBinding))
    (constants constants' : List (NodeId × Constant)) :
    (c.note count fields constants).note more fields' constants' =
      c.note (count + more) (fields ++ fields') (constants ++ constants') := by
  simp [note, IdTable.insertAll_append, UInt32.ofNat_add, UInt32.add_assoc]

/-- The next node after `count` more. -/
theorem nextNode_note {c : Compilation} {n : Nat} (h : c.nextNode = .ofNat n) (count : Nat)
    (fields : List (NodeId × FieldBinding)) (constants : List (NodeId × Constant)) :
    (c.note count fields constants).nextNode = .ofNat (n + count) := by
  rw [UInt32.ofNat_add, ← h]
  rfl

/-! ## Arguments and attributes -/

/-- A state that is handed on from one computation to the next. -/
theorem run_bind_of_run {σ α β : Type} {x : StateM σ α} {f : α → StateM σ β} {s s' : σ} {a : α}
    {result : β × σ} (first : x.run s = (a, s')) (rest : (f a).run s' = result) :
    (x >>= f).run s = result := by
  rw [StateT.run_bind, first]
  exact rest

theorem run_placeArgument (argument : NewArgument) {c : Compilation} {n : Nat}
    (h : c.nextNode = .ofNat n) :
    (placeArgument argument).run c =
      (⟨.ofNat n, argument.text⟩, c.note 1 [] (argument.value?.toList.map (.ofNat n, ·))) := by
  rw [← h]
  cases argument <;> rfl

theorem run_mapM_placeArgument (arguments : List NewArgument) {c : Compilation} {n : Nat}
    (h : c.nextNode = .ofNat n) :
    (arguments.mapM placeArgument).run c =
      (placedArguments n arguments,
        c.note arguments.length [] (notedConstants arguments (placedArguments n arguments))) := by
  induction arguments generalizing c n with
  | nil => exact congrArg (([] : List Expression), ·) c.note_zero.symm
  | cons argument arguments ih =>
    have placed : placedArguments n (argument :: arguments) =
        ⟨.ofNat n, argument.text⟩ :: placedArguments (n + 1) arguments := rfl
    rw [List.mapM_cons, placed, notedConstants_cons]
    refine run_bind_of_run (run_placeArgument argument h) ?_
    refine run_bind_of_run (ih (nextNode_note h 1 _ _)) ?_
    rw [note_note, Nat.add_comm 1]
    rfl

theorem run_placeAttribute (spec : NewAttribute) {c : Compilation} {n : Nat}
    (h : c.nextNode = .ofNat n) :
    (placeAttribute spec).run c =
      let placed := placedArguments n spec.arguments
      (⟨spec.name, placed⟩,
        c.note spec.arguments.length [] (notedConstants spec.arguments placed)) :=
  run_bind_of_run (run_mapM_placeArgument spec.arguments h) rfl

theorem run_mapM_placeAttribute (specs : List NewAttribute) {c : Compilation} {n : Nat}
    (h : c.nextNode = .ofNat n) :
    (specs.mapM placeAttribute).run c =
      (placedAttributes n specs,
        c.note (specs.flatMap (·.arguments)).length []
          (notedConstants (specs.flatMap (·.arguments))
            (placedArguments n (specs.flatMap (·.arguments))))) := by
  induction specs generalizing c n with
  | nil => exact congrArg (([] : List Attribute), ·) c.note_zero.symm
  | cons spec specs ih =>
    rw [List.mapM_cons, List.flatMap_cons, placedArguments_append, notedConstants_append,
      List.length_append]
    refine run_bind_of_run (run_placeAttribute spec h) ?_
    refine run_bind_of_run (ih (nextNode_note h _ _ _)) ?_
    rw [note_note]
    rfl

/-! ## Variables -/

theorem run_placeVariable (owner : NamedType) (fieldType : TypeRef) (bound : Bool) (name : String)
    {c : Compilation} {n : Nat} (h : c.nextNode = .ofNat n) :
    (placeVariable owner fieldType bound name).run c =
      (⟨.ofNat n, name⟩,
        c.note 1 (if bound then notedFields owner fieldType [⟨.ofNat n, name⟩] else []) []) := by
  rw [← h]
  cases bound <;> rfl

theorem run_mapM_placeVariable (owner : NamedType) (fieldType : TypeRef) (bound : Bool)
    (names : List String) {c : Compilation} {n : Nat} (h : c.nextNode = .ofNat n) :
    (names.mapM (placeVariable owner fieldType bound)).run c =
      let placed := placedVariables n names
      (placed,
        c.note names.length (if bound then notedFields owner fieldType placed else []) []) := by
  induction names generalizing c n with
  | nil => cases bound <;> exact congrArg (([] : List Variable), ·) c.note_zero.symm
  | cons name names ih =>
    have placed : placedVariables n (name :: names) =
        ⟨.ofNat n, name⟩ :: placedVariables (n + 1) names := rfl
    rw [List.mapM_cons, placed]
    refine run_bind_of_run (run_placeVariable owner fieldType bound name h) ?_
    refine run_bind_of_run (ih (nextNode_note h 1 _ _)) ?_
    rw [note_note, Nat.add_comm 1]
    cases bound <;> rfl

/-! ## Declarations -/

/-- The declaration is the one of the call, and what is noted is what the call says. -/
theorem run_placeField (call : Call) {c : Compilation} (h : c.nextNode = .ofNat call.start) :
    (placeField call.owner call.spec).run c =
      (call.declaration, c.note call.spec.nodeCount call.fields call.constants) := by
  refine run_bind_of_run (run_mapM_placeAttribute call.spec.attributes h) ?_
  refine run_bind_of_run
    (run_mapM_placeVariable call.owner call.spec.fieldType call.spec.bound call.spec.names
      (nextNode_note h _ _ _)) ?_
  rw [note_note, List.append_nil, List.nil_append, Call.constants, Call.declaration,
    NewField.arguments_placed]
  rfl

end Compilation

end HierarchyAccessors
