/-!
# Diagnostics

Where generation degrades instead of failing it records a diagnostic. A caller may inspect what
was recorded or treat it as a failure; the generated text does not depend on it.
-/

namespace HierarchyAccessors

/-- What went less well than it could. -/
inductive DiagnosticKind
  /-- The marker has no argument; the field was left out. -/
  | missingArgument
  /-- The argument is no compile-time constant; the field was left out. -/
  | nonConstantArgument
  /-- The argument is no integer of the enumeration's width; the field was left out. -/
  | argumentOutOfDomain
  /-- The host could not bind the variable; it was left out. -/
  | unresolvedSymbol
  /-- The field name has no lowercase letter; the fallback name was used. -/
  | fallbackIdentifier
  /-- The retrieval source is no single flag; the lookup on the instance itself was used. -/
  | nonCanonicalSource
  /-- Two accessors of one type have the same name. -/
  | duplicateAccessor
  /-- Two owners have the same unit name; the later unit got a numbered one. -/
  | duplicateUnitName
deriving DecidableEq

namespace DiagnosticKind

/-- The stable code. -/
def code : DiagnosticKind → String
  | missingArgument => "AG0001"
  | nonConstantArgument => "AG0002"
  | argumentOutOfDomain => "AG0003"
  | unresolvedSymbol => "AG0004"
  | fallbackIdentifier => "AG0005"
  | nonCanonicalSource => "AG0006"
  | duplicateAccessor => "AG0007"
  | duplicateUnitName => "AG0008"

/-- Whether the field was left out of the output. -/
def losesField : DiagnosticKind → Bool
  | missingArgument | nonConstantArgument | argumentOutOfDomain | unresolvedSymbol => true
  | fallbackIdentifier | nonCanonicalSource | duplicateAccessor | duplicateUnitName => false

end DiagnosticKind

/-- One recorded fallback. -/
structure Diagnostic where
  kind : DiagnosticKind
  /-- The qualified name of the owning type, when it is known. -/
  owner : Option String
  /-- The field concerned, when it is known. -/
  field : Option String
  message : String
deriving DecidableEq

namespace Diagnostic

/-- What the diagnostic is about, preceded by a blank. -/
def subject (d : Diagnostic) : String :=
  match d.owner, d.field with
  | some owner, some field => s!" {owner}.{field}"
  | some owner, none => s!" {owner}"
  | none, some field => s!" {field}"
  | none, none => ""

/-- The line in which the diagnostic is shown. -/
def display (d : Diagnostic) : String :=
  d.kind.code ++ d.subject ++ ": " ++ d.message

end Diagnostic

end HierarchyAccessors
