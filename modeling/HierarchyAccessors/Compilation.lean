import HierarchyAccessors.Schema
import HierarchyAccessors.Snapshot.Basic

/-!
# Compilations laid out step by step

A compilation in the making plays the host: it lays out files and declarations, hands out ids for
nodes and for symbols, each counting from 1, and notes the facts about them. At any point it can
be seen as a snapshot (`Compilation.snapshot`).
-/

namespace HierarchyAccessors

/-! ## What is added -/

/-- The argument of an attribute. -/
inductive NewArgument
  /-- A compile-time constant, and the text it is written as. -/
  | constant (text : String) (value : Constant)
  /-- An expression that does not fold. -/
  | nonConstant (text : String)

namespace NewArgument

def text : NewArgument → String
  | constant text _ => text
  | nonConstant text => text

/-- The value of a constant. -/
def value? : NewArgument → Option Constant
  | constant _ value => some value
  | nonConstant _ => none

/-- The constant of a retrieval source, written as a cast. -/
def ofSource (source : RetrievalSource) : NewArgument :=
  constant s!"(RetrievalSource){source.bits.toInt}" (.integer source.bits.toInt64)

end NewArgument

/-- An attribute, which stands in a list of its own. -/
structure NewAttribute where
  name : String
  arguments : List NewArgument

/-- The marker attribute with a retrieval source. -/
def NewAttribute.marker (source : RetrievalSource) : NewAttribute :=
  ⟨Schema.shortName, [.ofSource source]⟩

/-- A field declaration. -/
structure NewField where
  fieldType : TypeRef
  names : List String
  attributes : List NewAttribute
  /-- Whether the host binds the variables. -/
  bound : Bool

/-! ## Declarations in a file -/

/-- A type in a file, with the members that have been declared there. -/
structure OpenType where
  symbol : NamedType
  members : List Member

/-- The type inside its containing types and its namespace. -/
def OpenType.member (type : OpenType) : Member :=
  let inner := Member.typeDecl type.symbol.name type.members
  let nested := type.symbol.containingTypes.foldr (fun name inner => .typeDecl name [inner]) inner
  match type.symbol.namespaceName with
  | some name => .namespaceDecl name [nested]
  | none => nested

/-- A file with the types that have been declared in it. -/
structure OpenFile where
  path : String
  types : List OpenType

namespace OpenFile

def file (file : OpenFile) : SourceFile :=
  ⟨file.path, file.types.map (·.member)⟩

/-- Adds a member to the first declaration of the owner, or to a new one after the others. -/
def addMember (owner : NamedType) (member : Member) : List OpenType → List OpenType
  | [] => [⟨owner, [member]⟩]
  | type :: types =>
    if type.symbol.id = owner.id then { type with members := type.members ++ [member] } :: types
    else type :: addMember owner member types

end OpenFile

/-! ## The compilation -/

/-- A compilation in the making. -/
structure Compilation where
  finished : List OpenFile
  current : OpenFile
  facts : FactTables
  nextNode : NodeId
  nextSymbol : SymbolId

namespace Compilation

/-- One file and nothing in it. -/
def empty : Compilation :=
  ⟨[], ⟨"Source0.cs", []⟩, .empty, 1, 1⟩

/-- Begins another file, in which later declarations are put. -/
def file (c : Compilation) (path : String) : Compilation :=
  { c with finished := c.finished ++ [c.current], current := ⟨path, []⟩ }

/-- Declares a type under the next symbol id. -/
def addType (c : Compilation) (name : String) (namespaceName : Option String)
    (containingTypes : List String) : NamedType × Compilation :=
  let symbol : NamedType := ⟨c.nextSymbol, name, namespaceName, containingTypes⟩
  (symbol,
    { c with
      current := { c.current with types := c.current.types ++ [⟨symbol, []⟩] }
      nextSymbol := c.nextSymbol + 1 })

/-- Declares a type of a namespace. -/
def topLevel (c : Compilation) (namespaceName : Option String) (name : String) :
    NamedType × Compilation :=
  c.addType name namespaceName []

/-- Declares a type inside another. -/
def nested (c : Compilation) (outer : NamedType) (name : String) : NamedType × Compilation :=
  c.addType name outer.namespaceName (outer.containingTypes ++ [outer.name])

/-- The next node id. -/
def freshNode : StateM Compilation NodeId :=
  modifyGet fun c => (c.nextNode, { c with nextNode := c.nextNode + 1 })

/-- Places an argument, and notes its constant. -/
def placeArgument (argument : NewArgument) : StateM Compilation Expression := do
  let id ← freshNode
  match argument.value? with
  | none => pure ()
  | some value => modify fun c =>
    { c with facts := { c.facts with constants := c.facts.constants.insert id value } }
  return ⟨id, argument.text⟩

/-- Places an attribute with its arguments. -/
def placeAttribute (spec : NewAttribute) : StateM Compilation Attribute := do
  return ⟨spec.name, ← spec.arguments.mapM placeArgument⟩

/-- Places a variable of the owner, and notes its symbol if it is bound. -/
def placeVariable (owner : NamedType) (fieldType : TypeRef) (bound : Bool) (name : String) :
    StateM Compilation Variable := do
  let id ← freshNode
  if bound then
    let symbol : FieldBinding := ⟨name, fieldType, owner⟩
    modify fun c =>
      { c with facts := { c.facts with fields := c.facts.fields.insert id symbol } }
  return ⟨id, name⟩

/-- Places a field declaration: its attributes, then its variables. -/
def placeField (owner : NamedType) (spec : NewField) : StateM Compilation FieldDeclaration := do
  let attributes ← spec.attributes.mapM placeAttribute
  let declared ← spec.names.mapM (placeVariable owner spec.fieldType spec.bound)
  return ⟨attributes.map ([·]), spec.fieldType.display, declared⟩

/-- Adds a field declaration to the owner's declaration in the current file. -/
def field (c : Compilation) (owner : NamedType) (spec : NewField) : Compilation :=
  let (declaration, c) := (placeField owner spec).run c
  let types := OpenFile.addMember owner (.fieldDecl declaration) c.current.types
  { c with current := { c.current with types } }

/-- The compilation as it stands. -/
def snapshot (c : Compilation) : Snapshot :=
  ⟨(c.finished ++ [c.current]).map (·.file), c.facts⟩

end Compilation

end HierarchyAccessors
