import HierarchyAccessors.Symbols

/-!
# Declarations

The syntax trees of the host compilation, with just the structure that finding annotated fields
needs: namespaces, types, and fields with their attributes. Every other member is `other`.
-/

namespace HierarchyAccessors

/-- An expression, such as the argument of an attribute. -/
structure Expression where
  id : NodeId
  text : String
deriving DecidableEq

/-- The use of an attribute. -/
structure Attribute where
  /-- The name as it is written, with any qualifier. -/
  name : String
  arguments : List Expression
deriving DecidableEq

/-- A variable that a field declaration introduces. -/
structure Variable where
  id : NodeId
  name : String
deriving DecidableEq

/-- A field declaration, which may introduce several variables. -/
structure FieldDeclaration where
  /-- The bracketed lists of attributes in source order. -/
  attributeLists : List (List Attribute)
  /-- The declared type as it is written. -/
  writtenType : String
  declared : List Variable
deriving DecidableEq

namespace FieldDeclaration

/-- All attributes in source order. -/
def attributes (field : FieldDeclaration) : List Attribute :=
  field.attributeLists.flatten

/-- The nodes of the declaration that facts may be about: its variables, then the arguments of all
its attributes. -/
def nodeIds (field : FieldDeclaration) : List NodeId :=
  field.declared.map (·.id) ++
    field.attributes.flatMap fun usage => usage.arguments.map (·.id)

end FieldDeclaration

/-- A member of a file, a namespace or a type. -/
inductive Member
  | namespaceDecl (name : String) (members : List Member)
  | typeDecl (name : String) (members : List Member)
  | fieldDecl (declaration : FieldDeclaration)
  /-- Any member that is of no concern here. -/
  | other

/-- One source file. -/
structure SourceFile where
  path : String
  members : List Member

namespace Member

mutual

/-- The field declarations of a member, depth first in source order. -/
def fields : Member → List FieldDeclaration
  | namespaceDecl _ members => fieldsOf members
  | typeDecl _ members => fieldsOf members
  | fieldDecl declaration => [declaration]
  | other => []

/-- The field declarations of a list of members. -/
def fieldsOf : List Member → List FieldDeclaration
  | [] => []
  | member :: members => member.fields ++ fieldsOf members

end

theorem fieldsOf_append (ms ns : List Member) :
    fieldsOf (ms ++ ns) = fieldsOf ms ++ fieldsOf ns := by
  induction ms with
  | nil => rfl
  | cons m ms ih => simp [fieldsOf, ih]

end Member

/-- The field declarations of a file in source order. -/
def SourceFile.fields (file : SourceFile) : List FieldDeclaration :=
  Member.fieldsOf file.members

end HierarchyAccessors
