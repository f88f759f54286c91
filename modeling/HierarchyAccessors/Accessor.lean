import HierarchyAccessors.Resolution
import HierarchyAccessors.Lookup

/-!
# Accessors at run time

What a generated accessor does when it is read: it looks its value up in the hierarchy and keeps
it, and once the value is set it never looks again. Null is not a set value, so a lookup of a
single match that found nothing is repeated by the next read; a list of matches is set even when
it is empty.
-/

namespace HierarchyAccessors

/-- The queries that a hierarchy answers, in a context that a query may change. -/
structure Hierarchy (m : Type → Type) (Handle : Type) where
  findInSelf : (typeName : String) → m (Option Handle)
  findAllInSelf : (typeName : String) → m (List Handle)
  findInDescendants : (typeName : String) → (includeInactive : Bool) → m (Option Handle)
  findAllInDescendants : (typeName : String) → (includeInactive : Bool) → m (List Handle)
  findInAncestors : (typeName : String) → (includeInactive : Bool) → m (Option Handle)
  findAllInAncestors : (typeName : String) → (includeInactive : Bool) → m (List Handle)

/-- The result of a lookup. -/
inductive Found (Handle : Type)
  /-- The first match, or null. -/
  | one (handle : Option Handle)
  | many (handles : List Handle)
deriving DecidableEq

/-- Whether the result is anything but null. -/
def Found.isNonNull : Found Handle → Bool
  | one none => false
  | _ => true

/-- Asks the hierarchy for a lookup's result. -/
def Lookup.resolve [Monad m] (lookup : Lookup) (hierarchy : Hierarchy m Handle)
    (typeArgument : String) : m (Found Handle) :=
  match lookup with
  | ⟨.itself, .single⟩ => .one <$> hierarchy.findInSelf typeArgument
  | ⟨.itself, .all⟩ => .many <$> hierarchy.findAllInSelf typeArgument
  | ⟨.descendants, .single⟩ =>
    .one <$> hierarchy.findInDescendants typeArgument lookup.takesInactive
  | ⟨.descendants, .all⟩ =>
    .many <$> hierarchy.findAllInDescendants typeArgument lookup.takesInactive
  | ⟨.ancestors, .single⟩ =>
    .one <$> hierarchy.findInAncestors typeArgument lookup.takesInactive
  | ⟨.ancestors, .all⟩ =>
    .many <$> hierarchy.findAllInAncestors typeArgument lookup.takesInactive

/-- The accessor of one field of one instance. -/
structure Accessor (Handle : Type) where
  lookup : Lookup
  typeArgument : String
  /-- The result of the latest lookup. -/
  slot : Option (Found Handle)
deriving DecidableEq

namespace Accessor

/-- An accessor that has not been read, with the lookup that its generated text has. -/
def ofField (field : ResolvedField) : Accessor Handle :=
  let lookup := Lookup.ofSource field.source field.fieldType
  ⟨lookup, lookup.typeArgument field.fieldType, none⟩

/-- The value that needs no lookup. -/
def cached? (accessor : Accessor Handle) : Option (Found Handle) :=
  accessor.slot.filter Found.isNonNull

/-- The value of the accessor, and the accessor after the read. -/
def read [Monad m] (accessor : Accessor Handle) (hierarchy : Hierarchy m Handle) :
    m (Found Handle × Accessor Handle) :=
  match accessor.cached? with
  | some value => pure (value, accessor)
  | none => do
    let value ← accessor.lookup.resolve hierarchy accessor.typeArgument
    return (value, { accessor with slot := some value })

end Accessor

/-! ## Hierarchies given by a table -/

/-- The handles that are found under the key of a query. -/
structure LookupTable where
  rows : List (String × List String)

namespace LookupTable

/-- The handles under a key; none for a missing key. -/
def handles (table : LookupTable) (key : String) : List String :=
  (table.rows.lookup key).getD []

/-- The table with other handles under a key. -/
def set (table : LookupTable) (key : String) (handles : List String) : LookupTable :=
  ⟨(key, handles) :: table.rows⟩

/-- Answers a query and notes it down. -/
def query (table : LookupTable) (scope typeName : String) (includeInactive : Option Bool) :
    StateM (List String) (List String) := do
  let key := scope ++ ":" ++ typeName
  let flag := match includeInactive with
    | none => ""
    | some true => ":true"
    | some false => ":false"
  modify (· ++ [key ++ flag])
  return table.handles key

/-- A hierarchy that answers from the table and notes every query down, in order. -/
def hierarchy (table : LookupTable) : Hierarchy (StateM (List String)) String where
  findInSelf t := List.head? <$> table.query "self" t none
  findAllInSelf t := table.query "all_self" t none
  findInDescendants t b := List.head? <$> table.query "descendants" t (some b)
  findAllInDescendants t b := table.query "all_descendants" t (some b)
  findInAncestors t b := List.head? <$> table.query "ancestors" t (some b)
  findAllInAncestors t b := table.query "all_ancestors" t (some b)

end LookupTable

end HierarchyAccessors
