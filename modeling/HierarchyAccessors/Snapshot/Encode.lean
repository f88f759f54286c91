import HierarchyAccessors.Digest.Sha256
import HierarchyAccessors.Json.Value
import HierarchyAccessors.Snapshot.Basic

/-!
# Writing snapshots

The written form of a snapshot, and the fingerprint that is taken from it. Fields stand in a fixed
order, empty lists are written, and tables are keyed by decimal ids in increasing order, so equal
snapshots have one text.
-/

namespace HierarchyAccessors

open Json (Value)

/-! ## Symbols and constants -/

def NamedType.encode (type : NamedType) : Value :=
  .object
    [("id", .integer type.id.toNat), ("name", .string type.name),
      ("namespace", type.namespaceName.elim .null .string),
      ("containing_types", .array (type.containingTypes.map .string))]

def TypeRef.encode : TypeRef → Value
  | named display => .object [("kind", .string "named"), ("display", .string display)]
  | array element => .object [("kind", .string "array"), ("element", element.encode)]

def FieldBinding.encode (symbol : FieldBinding) : Value :=
  .object
    [("name", .string symbol.name), ("field_type", symbol.fieldType.encode),
      ("containing_type", symbol.containingType.encode)]

def Constant.encode : Constant → Value
  | integer n => .object [("integer", .integer n.toInt)]
  | boolean b => .object [("boolean", .bool b)]
  | string s => .object [("string", .string s)]
  | null => .string "null"

/-! ## Declarations -/

def Expression.encode (e : Expression) : Value :=
  .object [("id", .integer e.id.toNat), ("text", .string e.text)]

def Attribute.encode (usage : Attribute) : Value :=
  .object
    [("name", .string usage.name), ("arguments", .array (usage.arguments.map (·.encode)))]

def Variable.encode (v : Variable) : Value :=
  .object [("id", .integer v.id.toNat), ("name", .string v.name)]

/-- One bracketed list of attributes. -/
def Attribute.encodeList (usages : List Attribute) : Value :=
  .object [("attributes", .array (usages.map (·.encode)))]

def FieldDeclaration.encode (field : FieldDeclaration) : Value :=
  .object
    [("kind", .string "field"),
      ("attribute_lists", .array (field.attributeLists.map Attribute.encodeList)),
      ("type_syntax", .string field.writtenType),
      ("variables", .array (field.declared.map (·.encode)))]

mutual

def Member.encode : Member → Value
  | .namespaceDecl name members =>
    .object
      [("kind", .string "namespace"), ("name", .string name),
        ("members", .array (Member.encodeList members))]
  | .typeDecl name members =>
    .object
      [("kind", .string "type"), ("name", .string name),
        ("members", .array (Member.encodeList members))]
  | .fieldDecl declaration => declaration.encode
  | .other => .object [("kind", .string "other")]

def Member.encodeList : List Member → List Value
  | [] => []
  | member :: members => member.encode :: Member.encodeList members

end

def SourceFile.encode (file : SourceFile) : Value :=
  .object [("path", .string file.path), ("members", .array (Member.encodeList file.members))]

/-! ## Facts and snapshots -/

/-- The entries of a table, keyed by decimal ids. -/
def IdTable.encode (value : α → Value) (table : IdTable α) : Value :=
  .object (table.entries.map fun (id, a) => (String.ofList (Nat.toDigits 10 id.toNat), value a))

def FactTables.encode (tables : FactTables) : Value :=
  .object
    [("fields", tables.fields.encode FieldBinding.encode),
      ("constants", tables.constants.encode Constant.encode)]

namespace Snapshot

def encode (snapshot : Snapshot) : Value :=
  .object
    [("trees", .array (snapshot.files.map SourceFile.encode)),
      ("facts", snapshot.facts.encode)]

/-- The text with one item a line. -/
def pretty (snapshot : Snapshot) : String :=
  snapshot.encode.pretty

/-- The one text without white space. -/
def canonical (snapshot : Snapshot) : String :=
  snapshot.encode.compact

/-- The digest of the canonical text. -/
def fingerprint (snapshot : Snapshot) : String :=
  Digest.hex (Digest.sha256 snapshot.canonical.toUTF8.toList)

end Snapshot

end HierarchyAccessors
