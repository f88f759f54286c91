import HierarchyAccessors.Schema
import HierarchyAccessors.Symbols

/-!
# Lookups in the hierarchy

A lookup has a scope and a plurality, which together name one of six methods of the host. The
source of a field and whether its type is an array choose the lookup.
-/

namespace HierarchyAccessors

/-- How many results a lookup gives. -/
inductive Plurality
  /-- The first match, or null. -/
  | single
  /-- Every match, as an array. -/
  | all
deriving DecidableEq

/-- One of the six lookups. -/
structure Lookup where
  scope : SearchScope
  plurality : Plurality
deriving DecidableEq

namespace Lookup

/-- The lookup for a source that is not exactly one flag. -/
def fallback : Lookup := ⟨.itself, .single⟩

/-- The lookup for a source and a field type, if the source is exactly one flag. -/
def ofSource? (source : RetrievalSource) (type : TypeRef) : Option Lookup :=
  source.scope?.map fun scope => ⟨scope, if type.isArray then .all else .single⟩

/-- The lookup for a source and a field type. -/
def ofSource (source : RetrievalSource) (type : TypeRef) : Lookup :=
  (ofSource? source type).getD fallback

/-- The method of the host. -/
def method : Lookup → String
  | ⟨.itself, .single⟩ => "GetComponent"
  | ⟨.itself, .all⟩ => "GetComponents"
  | ⟨.descendants, .single⟩ => "GetComponentInChildren"
  | ⟨.descendants, .all⟩ => "GetComponentsInChildren"
  | ⟨.ancestors, .single⟩ => "GetComponentInParent"
  | ⟨.ancestors, .all⟩ => "GetComponentsInParent"

/-- Whether the method takes a flag for inactive objects, which is then always set. -/
def takesInactive (lookup : Lookup) : Bool :=
  lookup.scope != .itself

/-- The type that is sought: for every match of an array type its elements, else the type. -/
def soughtType (lookup : Lookup) (type : TypeRef) : TypeRef :=
  match lookup.plurality, type with
  | .all, .array element => element
  | _, type => type

/-- The type argument of the call. -/
def typeArgument (lookup : Lookup) (type : TypeRef) : String :=
  (lookup.soughtType type).display

/-- The arguments of the call. -/
def arguments (lookup : Lookup) : String :=
  if lookup.takesInactive then "true" else ""

/-- The call for a field type. -/
def call (lookup : Lookup) (type : TypeRef) : String :=
  lookup.method ++ "<" ++ lookup.typeArgument type ++ ">(" ++ lookup.arguments ++ ")"

theorem method_injective {a b : Lookup} (h : a.method = b.method) : a = b := by
  rcases a with ⟨_ | _ | _, _ | _⟩ <;> rcases b with ⟨_ | _ | _, _ | _⟩ <;> simp_all [method]

end Lookup

end HierarchyAccessors
