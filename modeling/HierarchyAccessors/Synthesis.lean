import HierarchyAccessors.AccessorName
import HierarchyAccessors.IndentedText
import HierarchyAccessors.Lookup
import HierarchyAccessors.OwnerGroup

/-!
# Units for owners

The unit of an owner is a partial declaration of the type, inside its namespace and its enclosing
types, with one accessor for each field. An accessor looks its value up on the first read and
keeps it in the backing field.
-/

namespace HierarchyAccessors

/-- The end of every unit's name. -/
def unitSuffix : String := ".g.cs"

/-- The name of the unit for an owner. -/
def NamedType.unitFileName (owner : NamedType) : String :=
  owner.fullName ++ unitSuffix

/-! ## Accessors -/

namespace ResolvedField

/-- The name of the field's accessor. -/
def propertyName (field : ResolvedField) : String :=
  (AccessorName.ofField field.fieldName).text

/-- The lookup of the field's accessor. -/
def lookup (field : ResolvedField) : Lookup :=
  .ofSource field.source field.fieldType

/-- The call that looks up the value of the field. -/
def lookupCall (field : ResolvedField) : String :=
  field.lookup.call field.fieldType

/-- The lines of the accessor. -/
def accessorLines (field : ResolvedField) : List String :=
  [s!"private {field.fieldType.display} {field.propertyName} => {field.fieldName} is null",
   s!"    ? ({field.fieldName} = {field.lookupCall})",
   s!"    : {field.fieldName};"]

/-- A diagnostic about the field. -/
def diagnostic (field : ResolvedField) (owner : NamedType) (kind : DiagnosticKind)
    (message : String) : Diagnostic where
  kind := kind
  owner := some owner.fullName
  field := some field.fieldName
  message := message

/-- What the field's own accessor degrades to. -/
def fallbacks (field : ResolvedField) (owner : NamedType) : List Diagnostic :=
  (if (AccessorName.ofField field.fieldName).isFallback then
    [field.diagnostic owner .fallbackIdentifier
      s!"field name has no lowercase letter; accessor named `{field.propertyName}`"]
  else []) ++
  (if field.source.scope?.isNone then
    [field.diagnostic owner .nonCanonicalSource
      s!"retrieval source {field.source.bits.toInt} is not a single flag; using the self lookup"]
  else [])

/-- The diagnostic for an accessor whose name stands among `taken`. -/
def repetition (field : ResolvedField) (owner : NamedType) (taken : List String) :
    List Diagnostic :=
  if field.propertyName ∈ taken then
    [field.diagnostic owner .duplicateAccessor
      s!"accessor `{field.propertyName}` is generated more than once"]
  else []

end ResolvedField

/-- Writes the accessor of a field. -/
def IndentedText.accessor (t : IndentedText) (field : ResolvedField) : IndentedText :=
  field.accessorLines.foldl .line t

/-- Writes the accessors of the fields, each after a blank line. -/
def IndentedText.moreAccessors (t : IndentedText) (fields : List ResolvedField) : IndentedText :=
  fields.foldl (fun t field => t.blankLine.accessor field) t

/-! ## Units -/

namespace OwnerGroup

/-- The headers of the blocks around the accessors, outermost first. -/
def headers (group : OwnerGroup) : List String :=
  group.owner.namespaceName.toList.map ("namespace " ++ ·) ++
    group.owner.containingTypes.map ("partial class " ++ ·) ++
    ["public partial class " ++ group.owner.name]

/-- The blocks are opened around the accessors and closed after them. -/
def write (group : OwnerGroup) (t : IndentedText) : IndentedText :=
  let t := group.headers.foldl .enter (t.line "// <auto-generated/>")
  let t := match group.fields with
    | [] => t
    | field :: fields => (t.accessor field).moreAccessors fields
  group.headers.foldl (fun t _ => t.leave) t

/-- The unit of the group, if it has a field. -/
def unit? (group : OwnerGroup) : Option SourceUnit :=
  if group.fields.isEmpty then none
  else some ⟨group.owner.unitFileName, (group.write .empty).text⟩

/-- The diagnostics about the fields, of which the accessors `taken` come before. -/
def diagnosticsAfter (owner : NamedType) (taken : List String) :
    List ResolvedField → List Diagnostic
  | [] => []
  | field :: fields =>
    field.fallbacks owner ++ field.repetition owner taken ++
      diagnosticsAfter owner (field.propertyName :: taken) fields

/-- The diagnostics about the fields of the group, field by field. -/
def diagnostics (group : OwnerGroup) : List Diagnostic :=
  diagnosticsAfter group.owner [] group.fields

end OwnerGroup

end HierarchyAccessors
