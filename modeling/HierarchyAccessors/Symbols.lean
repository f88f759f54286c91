/-!
# Symbols and constants

What the host compilation knows about the program: the types that own fields, the types and
symbols of fields, and the constants that expressions fold to.
-/

namespace HierarchyAccessors

/-- A syntax node, unique within one compilation. -/
abbrev NodeId := UInt32

/-- A type within one compilation. Two symbols are the same type exactly when their ids agree,
whatever they are called. -/
abbrev SymbolId := UInt64

/-- A named type that owns fields. -/
structure NamedType where
  id : SymbolId
  name : String
  /-- The enclosing namespace; none for the global one. -/
  namespaceName : Option String
  /-- The simple names of the enclosing types, outermost first. -/
  containingTypes : List String
deriving DecidableEq

namespace NamedType

/-- The namespace, the enclosing types and the type itself, outermost first. -/
def path (type : NamedType) : List String :=
  type.namespaceName.toList ++ type.containingTypes ++ [type.name]

/-- The dotted name with namespace and enclosing types. -/
def fullName (type : NamedType) : String :=
  ".".intercalate type.path

end NamedType

/-- The declared type of a field. -/
inductive TypeRef
  /-- A type that is no array, in the form in which it is displayed. -/
  | named (display : String)
  /-- A one-dimensional array. -/
  | array (element : TypeRef)
deriving DecidableEq

namespace TypeRef

def isArray : TypeRef → Bool
  | named _ => false
  | array _ => true

/-- The type of an array's elements. -/
def element? : TypeRef → Option TypeRef
  | named _ => none
  | array element => some element

/-- The type as it is written. -/
def display : TypeRef → String
  | named display => display
  | array element => element.display ++ "[]"

end TypeRef

/-- The symbol of one field variable. -/
structure FieldBinding where
  name : String
  fieldType : TypeRef
  /-- The type that declares the field. -/
  containingType : NamedType
deriving DecidableEq

/-- What an expression folds to at compile time. -/
inductive Constant
  /-- Any integral constant, members of enumerations included. -/
  | integer (n : Int64)
  | boolean (b : Bool)
  | string (s : String)
  | null
deriving DecidableEq

end HierarchyAccessors
