import HierarchyAccessors.Accessor
import HierarchyAccessors.Synthesis

/-!
# What an accessor asks

A `Query` is one question to a hierarchy, with its arguments. A hierarchy that is `recording`
answers as before and notes down what it is asked, so that the lookups of a read can be counted and
compared. Each field has one query, given row by row in `ResolvedField.query`.

A read of an accessor whose value is cached asks nothing (`run_read_of_cached`), and any other read
asks the one query of the accessor and keeps the answer (`run_read_of_uncached`).
-/

namespace HierarchyAccessors

/-- One question to a hierarchy. -/
inductive Query
  | inSelf (typeName : String)
  | allInSelf (typeName : String)
  | inDescendants (typeName : String) (includeInactive : Bool)
  | allInDescendants (typeName : String) (includeInactive : Bool)
  | inAncestors (typeName : String) (includeInactive : Bool)
  | allInAncestors (typeName : String) (includeInactive : Bool)
deriving DecidableEq

variable {m : Type → Type} {Handle : Type}

/-- The answer of a hierarchy. -/
def Query.ask [Monad m] (hierarchy : Hierarchy m Handle) : Query → m (Found Handle)
  | inSelf typeName => .one <$> hierarchy.findInSelf typeName
  | allInSelf typeName => .many <$> hierarchy.findAllInSelf typeName
  | inDescendants typeName inactive => .one <$> hierarchy.findInDescendants typeName inactive
  | allInDescendants typeName inactive => .many <$> hierarchy.findAllInDescendants typeName inactive
  | inAncestors typeName inactive => .one <$> hierarchy.findInAncestors typeName inactive
  | allInAncestors typeName inactive => .many <$> hierarchy.findAllInAncestors typeName inactive

/-! ## Hierarchies that keep a record -/

/-- Notes a query down and gives the answer. -/
def Query.noting [Monad m] {α : Type} (query : Query) (answer : m α) : StateT (List Query) m α := do
  modify (· ++ [query])
  answer

/-- The hierarchy with a record of the queries that it is asked, in order. -/
def Hierarchy.recording [Monad m] (hierarchy : Hierarchy m Handle) :
    Hierarchy (StateT (List Query) m) Handle where
  findInSelf t := (Query.inSelf t).noting (hierarchy.findInSelf t)
  findAllInSelf t := (Query.allInSelf t).noting (hierarchy.findAllInSelf t)
  findInDescendants t b := (Query.inDescendants t b).noting (hierarchy.findInDescendants t b)
  findAllInDescendants t b :=
    (Query.allInDescendants t b).noting (hierarchy.findAllInDescendants t b)
  findInAncestors t b := (Query.inAncestors t b).noting (hierarchy.findInAncestors t b)
  findAllInAncestors t b := (Query.allInAncestors t b).noting (hierarchy.findAllInAncestors t b)

theorem Query.run_noting [Monad m] [LawfulMonad m] {α : Type} (query : Query) (answer : m α)
    (record : List Query) :
    (query.noting answer).run record = (fun a => (a, record ++ [query])) <$> answer := by
  simp [noting]

/-- A query to a recording hierarchy is answered as before, and it is all that is noted down. -/
theorem Query.run_ask [Monad m] [LawfulMonad m] (query : Query) (hierarchy : Hierarchy m Handle)
    (record : List Query) :
    (query.ask hierarchy.recording).run record =
      (fun value => (value, record ++ [query])) <$> query.ask hierarchy := by
  cases query <;> simp [ask, Hierarchy.recording, run_noting]

/-! ## The query of an accessor -/

/-- The query that a lookup makes for a type. -/
def Lookup.query (lookup : Lookup) (typeName : String) : Query :=
  match lookup with
  | ⟨.itself, .single⟩ => .inSelf typeName
  | ⟨.itself, .all⟩ => .allInSelf typeName
  | ⟨.descendants, .single⟩ => .inDescendants typeName true
  | ⟨.descendants, .all⟩ => .allInDescendants typeName true
  | ⟨.ancestors, .single⟩ => .inAncestors typeName true
  | ⟨.ancestors, .all⟩ => .allInAncestors typeName true

theorem Lookup.resolve_eq_ask [Monad m] (lookup : Lookup) (hierarchy : Hierarchy m Handle)
    (typeName : String) :
    lookup.resolve hierarchy typeName = (lookup.query typeName).ask hierarchy := by
  rcases lookup with ⟨_ | _ | _, _ | _⟩ <;> rfl

namespace Accessor

/-- The query that the accessor makes where it has no value. -/
def query (accessor : Accessor Handle) : Query :=
  accessor.lookup.query accessor.typeArgument

theorem run_read_of_cached [Monad m] {accessor : Accessor Handle} {value : Found Handle}
    (h : accessor.cached? = some value) (hierarchy : Hierarchy m Handle) (record : List Query) :
    (accessor.read hierarchy.recording).run record = pure ((value, accessor), record) := by
  rw [read, h]
  rfl

theorem run_read_of_uncached [Monad m] [LawfulMonad m] {accessor : Accessor Handle}
    (h : accessor.cached? = none) (hierarchy : Hierarchy m Handle) (record : List Query) :
    (accessor.read hierarchy.recording).run record =
      (fun value => ((value, { accessor with slot := some value }), record ++ [accessor.query])) <$>
        accessor.query.ask hierarchy := by
  rw [read, h]
  simp [Lookup.resolve_eq_ask, Query.run_ask, query]

/-- The record changes nothing about a read. -/
theorem fst_run_read [Monad m] [LawfulMonad m] (accessor : Accessor Handle)
    (hierarchy : Hierarchy m Handle) (record : List Query) :
    Prod.fst <$> (accessor.read hierarchy.recording).run record = accessor.read hierarchy := by
  cases cached : accessor.cached? with
  | some value =>
    rw [run_read_of_cached cached]
    simp [read, cached]
  | none =>
    rw [run_read_of_uncached cached]
    simp [read, cached, Lookup.resolve_eq_ask, query]

end Accessor

/-! ## The query of a field -/

/-- The query for a field. Arrays are asked for by their elements, except where the source is no
single flag. -/
def ResolvedField.query (field : ResolvedField) : Query :=
  match field.source.scope?, field.fieldType with
  | some .itself, .named display => .inSelf display
  | some .itself, .array element => .allInSelf element.display
  | some .descendants, .named display => .inDescendants display true
  | some .descendants, .array element => .allInDescendants element.display true
  | some .ancestors, .named display => .inAncestors display true
  | some .ancestors, .array element => .allInAncestors element.display true
  | none, type => .inSelf type.display

theorem ResolvedField.query_eq (field : ResolvedField) :
    field.query = field.lookup.query (field.lookup.typeArgument field.fieldType) := by
  unfold query lookup Lookup.ofSource Lookup.ofSource?
  rcases field.source.scope? with _ | _ | _ | _ <;> rcases field.fieldType with _ | _ <;> rfl

theorem Accessor.query_ofField (field : ResolvedField) :
    (Accessor.ofField field : Accessor Handle).query = field.query :=
  field.query_eq.symm

end HierarchyAccessors
