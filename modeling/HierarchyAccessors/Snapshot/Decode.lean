import HierarchyAccessors.Json.Reader
import HierarchyAccessors.Snapshot.Basic

/-!
# Reading snapshots

The readers of the snapshot format. Unknown keys are passed over, lists may be left out, and ids
and constants must be integer literals in range. Declarations are tagged by their kind and read as
a whole before their content is judged; a declaration of an unfamiliar kind is read as `other`.

`Snapshot.read` also refuses a snapshot in which a node id occurs twice.
-/

namespace HierarchyAccessors

open Json (Fault Numeral Quoted Reader Tree)
open Json.Reader (content record required tagged)

/-! ## Ids -/

def NodeId.read : Reader NodeId := fun depth t =>
  (Reader.integer 0 (UInt32.size - 1) depth t).map fun n => UInt32.ofNat n.toNat

def SymbolId.read : Reader SymbolId := fun depth t =>
  (Reader.integer 0 (UInt64.size - 1) depth t).map fun n => UInt64.ofNat n.toNat

/-- The id that a key of a table spells out. The key is taken as it stands in the text: a number
literal and nothing else before the closing quote. -/
def NodeId.ofKey (key : Quoted) : Except Fault NodeId :=
  let text := match key with
    | .closed raw => raw ++ ['"']
    | .unclosed raw => raw
  if text.head?.any fun c => c = '-' || c.isDigit then
    match Numeral.scan text with
    | .error broken => .error broken.read
    | .ok (n, rest) => do
      let id ← NodeId.read 0 (.number n)
      if rest = ['"'] then return id else throw .malformed
  else .error .malformed

/-- The entries of a table. -/
def IdTable.readEntries (value : Tree → Except Fault α) :
    List (Quoted × Tree) → IdTable α → Except Fault (IdTable α)
  | [], table => .ok table
  | (key, t) :: rest, table => do
    let id ← NodeId.ofKey key
    let a ← value t
    readEntries value rest (table.insert id a)

/-- A table, of which the last entry counts where an id occurs again. -/
def IdTable.read (value : Reader α) : Reader (IdTable α) := fun depth t =>
  match t, depth with
  | .object _ _, 0 => .error .malformed
  | .object entries ending, depth + 1 => do
    let table ← IdTable.readEntries (value depth) entries .empty
    ending.check
    return table
  | t, _ => .error t.misfit

/-! ## Symbols and constants -/

/-- The parts of a named type that have been read. -/
structure NamedType.Parts where
  id : Option SymbolId := none
  name : Option String := none
  namespaceName : Option String := none
  containingTypes : List String := []

def NamedType.read : Reader NamedType := fun depth t => do
  let parts ← record
    [.of "id" SymbolId.read fun id (p : NamedType.Parts) => { p with id },
      .of "name" Reader.string fun name p => { p with name },
      .of "namespace" (Reader.nullable Reader.string) fun namespaceName p =>
        { p with namespaceName },
      .of "containing_types" (Reader.list Reader.string) fun containingTypes p =>
        { p with containingTypes }]
    {} depth t
  return {
    id := ← required parts.id
    name := ← required parts.name
    namespaceName := parts.namespaceName
    containingTypes := parts.containingTypes }

namespace TypeRef

/-- The two kinds of types. -/
inductive Kind
  | named
  | array

/-- The kind of a type. Inside a value that has been read as a whole a kind may also be given by
its number. -/
def Kind.read (nested : Bool) (t : Tree) : Except Fault Kind :=
  match t with
  | .string q => do
    match ← q.decode with
    | "named" => return .named
    | "array" => return .array
    | _ => throw .unfit
  | .number n =>
    if nested then
      match n.toInt? with
      | some 0 => .ok .named
      | some 1 => .ok .array
      | _ => .error .unfit
    else .error t.misfit
  | t => .error t.misfit

/-- A type whose element types are read by `element`. -/
def readWith (element : Tree → Except Fault TypeRef) (nested : Bool) : Reader TypeRef :=
  fun depth t => do
    let (kind, body) ← tagged (Kind.read nested) depth t
    content do
      match kind with
      | .named =>
        let display ← record [.of "display" Reader.string fun s _ => some s] none depth body
        return named (← required display)
      | .array =>
        let inner ← record [.of "element" (fun _ => element) fun e _ => some e] none depth body
        return array (← required inner)

/-- A type; `nested` if it stands inside a value that has been read as a whole. -/
def readAt (nested : Bool) : Nat → Tree → Except Fault TypeRef
  | 0 => readWith (fun t => .error t.misfit) nested 0
  | depth + 1 => readWith (readAt true depth) nested (depth + 1)

def read : Reader TypeRef := readAt false

end TypeRef

/-- The parts of a field symbol that have been read. -/
structure FieldBinding.Parts where
  name : Option String := none
  fieldType : Option TypeRef := none
  containingType : Option NamedType := none

def FieldBinding.read : Reader FieldBinding := fun depth t => do
  let parts ← record
    [.of "name" Reader.string fun name (p : FieldBinding.Parts) => { p with name },
      .of "field_type" TypeRef.read fun fieldType p => { p with fieldType },
      .of "containing_type" NamedType.read fun containingType p => { p with containingType }]
    {} depth t
  return {
    name := ← required parts.name
    fieldType := ← required parts.fieldType
    containingType := ← required parts.containingType }

namespace Constant

/-- The value of the constant with the given name. -/
def readNamed (name : String) : Except Fault (Reader Constant) :=
  match name with
  | "integer" => .ok fun depth t =>
    (Reader.integer Int64.minValue.toInt Int64.maxValue.toInt depth t).map fun n =>
      .integer (Int64.ofInt n)
  | "boolean" => .ok fun depth t => (Reader.bool depth t).map .boolean
  | "string" => .ok fun depth t => (Reader.string depth t).map .string
  | "null" => .ok fun depth t => (Reader.null depth t).map fun _ => .null
  | _ => .error .unfit

/-- A constant: an object whose one key says what it is, or a bare name. Where the key must stand,
anything else that is no literal in quotes breaks the grammar, a number or a bracket too. -/
def read : Reader Constant := fun depth t =>
  match t, depth with
  | .string q, _ => do
    let name ← q.decode
    if name = "null" then return .null else throw .unfit
  | .absent, _ => .error .ended
  | .object _ _, 0 => .error .malformed
  | .object [] (.unkeyed none), _ + 1 => .error .ended
  | .object ((key, t) :: rest) ending, depth + 1 => do
    let name ← key.decode
    let value ← readNamed name
    let c ← value depth t
    match rest, ending with
    | [], .closed => return c
    | [], .cut fault => throw fault
    | _, _ => throw .malformed
  | _, _ => .error .malformed

end Constant

/-! ## Declarations -/

/-- The parts of an expression that have been read. -/
structure Expression.Parts where
  id : Option NodeId := none
  text : String := ""

def Expression.read : Reader Expression := fun depth t => do
  let parts ← record
    [.of "id" NodeId.read fun id (p : Expression.Parts) => { p with id },
      .of "text" Reader.string fun text p => { p with text }]
    {} depth t
  return { id := ← required parts.id, text := parts.text }

/-- The parts of an attribute that have been read. -/
structure Attribute.Parts where
  name : Option String := none
  arguments : List Expression := []

def Attribute.read : Reader Attribute := fun depth t => do
  let parts ← record
    [.of "name" Reader.string fun name (p : Attribute.Parts) => { p with name },
      .of "arguments" (Reader.list Expression.read) fun arguments p => { p with arguments }]
    {} depth t
  return { name := ← required parts.name, arguments := parts.arguments }

/-- One bracketed list of attributes. -/
def Attribute.readList : Reader (List Attribute) := fun depth t =>
  record [.of "attributes" (Reader.list Attribute.read) fun usages _ => usages] [] depth t

/-- The parts of a variable that have been read. -/
structure Variable.Parts where
  id : Option NodeId := none
  name : Option String := none

def Variable.read : Reader Variable := fun depth t => do
  let parts ← record
    [.of "id" NodeId.read fun id (p : Variable.Parts) => { p with id },
      .of "name" Reader.string fun name p => { p with name }]
    {} depth t
  return { id := ← required parts.id, name := ← required parts.name }

/-- The content of a field declaration, after its kind. -/
def FieldDeclaration.read : Reader FieldDeclaration := fun depth t =>
  record
    [.of "attribute_lists" (Reader.list Attribute.readList) fun attributeLists
        (f : FieldDeclaration) => { f with attributeLists },
      .of "type_syntax" Reader.string fun writtenType f => { f with writtenType },
      .of "variables" (Reader.list Variable.read) fun declared f => { f with declared }]
    ⟨[], "", []⟩ depth t

namespace Member

/-- The kinds of members. -/
inductive Kind
  | inNamespace
  | inType
  | inField
  | other

/-- The kind of a member. Inside a value that has been read as a whole a kind may also be given by
its number. -/
def Kind.read (nested : Bool) (t : Tree) : Except Fault Kind :=
  match t with
  | .string q => do
    match ← q.decode with
    | "namespace" => return .inNamespace
    | "type" => return .inType
    | "field" => return .inField
    | _ => return .other
  | .number n =>
    if nested then
      match n.toInt? with
      | some 0 => .ok .inNamespace
      | some 1 => .ok .inType
      | some 2 => .ok .inField
      | some i => if 0 ≤ i ∧ i < UInt64.size then .ok .other else .error .unfit
      | none => .error .unfit
    else .error t.misfit
  | t => .error t.misfit

/-- The parts of a namespace or type that have been read. -/
structure Parts where
  name : Option String := none
  members : List Member := []

/-- The name and the members of a namespace or type. -/
def readBody (member : Tree → Except Fault Member) : Reader (String × List Member) :=
  fun depth t => do
    let parts ← record
      [.of "name" Reader.string fun name (p : Parts) => { p with name },
        .of "members" (Reader.list fun _ => member) fun members p => { p with members }]
      {} depth t
    return (← required parts.name, parts.members)

/-- A member whose own members are read by `member`. -/
def readWith (member : Tree → Except Fault Member) (nested : Bool) : Reader Member :=
  fun depth t => do
    let (kind, body) ← tagged (Kind.read nested) depth t
    content do
      match kind with
      | .inNamespace =>
        let (name, members) ← readBody member depth body
        return namespaceDecl name members
      | .inType =>
        let (name, members) ← readBody member depth body
        return typeDecl name members
      | .inField =>
        let declaration ← FieldDeclaration.read depth body
        return fieldDecl declaration
      | .other =>
        match body with
        | .array (_ :: _) _ => throw .unfit
        | _ => return other

/-- A member; `nested` if it stands inside a value that has been read as a whole. The members of
a member lie two containers deeper. -/
def readAt (nested : Bool) : Nat → Tree → Except Fault Member
  | 0 => readWith (fun t => .error t.misfit) nested 0
  | 1 => readWith (fun t => .error t.misfit) nested 1
  | depth + 2 => readWith (readAt true depth) nested (depth + 2)

def read : Reader Member := readAt false

end Member

def SourceFile.read : Reader SourceFile := fun depth t =>
  record
    [.of "path" Reader.string fun path (f : SourceFile) => { f with path },
      .of "members" (Reader.list Member.read) fun members f => { f with members }]
    ⟨"", []⟩ depth t

/-! ## Facts and snapshots -/

def FactTables.read : Reader FactTables := fun depth t =>
  record
    [.of "fields" (IdTable.read FieldBinding.read) fun fields (f : FactTables) => { f with fields },
      .of "constants" (IdTable.read Constant.read) fun constants f => { f with constants }]
    .empty depth t

namespace Snapshot

/-- Reads a snapshot whose ids are not checked. -/
def decode : Reader Snapshot := fun depth t =>
  record
    [.of "trees" (Reader.list SourceFile.read) fun files (s : Snapshot) => { s with files },
      .of "facts" FactTables.read fun facts s => { s with facts }]
    ⟨[], .empty⟩ depth t

/-- Why a text is refused as a snapshot. -/
inductive Refusal
  | text (fault : Fault)
  /-- A node id occurs again in the file with the given path. -/
  | duplicateNode (id : NodeId) (path : String)
deriving DecidableEq

/-- What a repeated node id is reported as. -/
def duplicateMessage (id : NodeId) (path : String) : String :=
  s!"node id {id} is declared more than once in tree '{path}'"

/-- Reads a snapshot as it stands. -/
def readUnchecked (text : String) : Except Fault Snapshot :=
  Reader.document decode text

/-- Reads a snapshot in which every node has an id of its own. -/
def read (text : String) : Except Refusal Snapshot := do
  let snapshot ← (readUnchecked text).mapError .text
  match snapshot.repeated? with
  | some (id, path) => throw (.duplicateNode id path)
  | none => return snapshot

end Snapshot

end HierarchyAccessors
