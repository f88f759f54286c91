import HierarchyAccessors.Declarations
import HierarchyAccessors.IdTable

/-!
# Facts about syntax nodes

Types are never resolved here and constants never folded: the host answers both questions. Its
answers come as functions (`Facts`), of which a pair of tables is one case (`FactTables`).
-/

namespace HierarchyAccessors

/-- What the host answers about the nodes of a compilation. -/
structure Facts where
  /-- The symbol that a variable declares; none when the host cannot bind it. -/
  symbol? : Variable → Option FieldBinding
  /-- The constant that an expression folds to; none when it is not constant. -/
  constant? : Expression → Option Constant

/-- Facts keyed by the ids of variables and of expressions. -/
structure FactTables where
  fields : IdTable FieldBinding
  constants : IdTable Constant

namespace FactTables

def empty : FactTables := ⟨.empty, .empty⟩

/-- The answers that the tables hold. -/
def facts (tables : FactTables) : Facts where
  symbol? v := tables.fields.find? v.id
  constant? e := tables.constants.find? e.id

end FactTables

end HierarchyAccessors
