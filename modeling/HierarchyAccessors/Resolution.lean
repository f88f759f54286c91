import HierarchyAccessors.Diagnostic
import HierarchyAccessors.Facts
import HierarchyAccessors.Marker
import HierarchyAccessors.Text.Quoted

/-!
# Resolution of marked fields

Every variable of a marked declaration becomes a resolved field, once the host has bound its
symbol and the argument of the marker has folded to a value of the enumeration; otherwise it
becomes a diagnostic. Each variable has exactly one outcome (`outcomes`).
-/

namespace HierarchyAccessors

/-- A resolved field. -/
structure ResolvedField where
  fieldName : String
  /-- The type that declares the field. -/
  owner : NamedType
  fieldType : TypeRef
  source : RetrievalSource
deriving DecidableEq

/-! ## The argument of a marker -/

/-- Why an argument gives no retrieval source. -/
inductive ArgumentError
  | missing
  | notConstant (text : String)
  | outOfDomain (text : String) (value : Constant)
deriving DecidableEq

/-- A constant as a diagnostic shows it. -/
def Constant.shown : Constant → String
  | integer n => s!"Integer({n.toInt})"
  | boolean b => if b then "Boolean(true)" else "Boolean(false)"
  | string s => s!"String({Text.quoted s})"
  | null => "Null"

namespace ArgumentError

def kind : ArgumentError → DiagnosticKind
  | missing => .missingArgument
  | notConstant _ => .nonConstantArgument
  | outOfDomain _ _ => .argumentOutOfDomain

def message : ArgumentError → String
  | missing => "marker attribute has no retrieval source argument"
  | notConstant text => s!"argument `{text}` is not a compile-time constant"
  | outOfDomain text value =>
    s!"argument `{text}` evaluates to {value.shown}, not a RetrievalSource value"

end ArgumentError

/-- The retrieval source that the marker's first argument gives. -/
def Attribute.source (marker : Attribute) (facts : Facts) : Except ArgumentError RetrievalSource :=
  match marker.arguments with
  | [] => .error .missing
  | argument :: _ =>
    match facts.constant? argument with
    | none => .error (.notConstant argument.text)
    | some (.integer n) =>
      match RetrievalSource.ofConstant? n with
      | some source => .ok source
      | none => .error (.outOfDomain argument.text (.integer n))
    | some value => .error (.outOfDomain argument.text value)

/-! ## Outcomes -/

/-- A variable that the host cannot bind. -/
def Variable.unresolved (v : Variable) : Diagnostic where
  kind := .unresolvedSymbol
  owner := none
  field := some v.name
  message := s!"no symbol bound for field `{v.name}`"

/-- A field whose marker gives no retrieval source. -/
def FieldBinding.dropped (symbol : FieldBinding) (e : ArgumentError) : Diagnostic where
  kind := e.kind
  owner := some symbol.containingType.fullName
  field := some symbol.name
  message := e.message

/-- What becomes of a variable under a marker. -/
def Variable.outcome (v : Variable) (marker : Attribute) (facts : Facts) :
    Except Diagnostic ResolvedField :=
  match facts.symbol? v with
  | none => .error v.unresolved
  | some symbol =>
    match marker.source facts with
    | .error e => .error (symbol.dropped e)
    | .ok source => .ok ⟨symbol.name, symbol.containingType, symbol.fieldType, source⟩

/-- What becomes of the variables of the marked declarations, in order. -/
def outcomes (fields : List MarkedField) (facts : Facts) :
    List (Except Diagnostic ResolvedField) :=
  fields.flatMap fun field => field.declaration.declared.map (·.outcome field.marker facts)

/-- The fields and the diagnostics of a resolution, each in the order of the variables. -/
structure Resolution where
  fields : List ResolvedField
  diagnostics : List Diagnostic

/-- The error of a failure. -/
def failure? : Except ε α → Option ε
  | .ok _ => none
  | .error e => some e

/-- Resolves every variable of every marked declaration. -/
def resolve (fields : List MarkedField) (facts : Facts) : Resolution where
  fields := (outcomes fields facts).filterMap (·.toOption)
  diagnostics := (outcomes fields facts).filterMap failure?

end HierarchyAccessors
