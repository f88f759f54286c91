import HierarchyAccessors.Resolution

/-!
# Fields by owner

Resolved fields are grouped by the id of the type that declares the field, never by its name. The
groups stand in the order in which their ids first occur, the fields of a group in the order of
the list, and a group takes its owner from its first field.
-/

namespace HierarchyAccessors

/-- The marked fields of one owner. -/
structure OwnerGroup where
  owner : NamedType
  fields : List ResolvedField
deriving DecidableEq

namespace OwnerGroup

/-- Adds a field to the group of its owner, or begins one after the others. -/
def add (field : ResolvedField) : List OwnerGroup → List OwnerGroup
  | [] => [⟨field.owner, [field]⟩]
  | group :: groups =>
    if group.owner.id = field.owner.id then
      { group with fields := group.fields ++ [field] } :: groups
    else group :: add field groups

/-- The groups of the fields. -/
def ofFields (fields : List ResolvedField) : List OwnerGroup :=
  fields.foldl (fun groups field => add field groups) []

end OwnerGroup

end HierarchyAccessors
