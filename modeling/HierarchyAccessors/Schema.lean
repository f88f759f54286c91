/-!
# The marker attribute and its argument

The source unit that defines the marker attribute and the enumeration of its argument is the same
in every pass. `RetrievalSource` is a value of that enumeration: any 32 bits are one, but only
three of them say where a dependency is looked up.
-/

namespace HierarchyAccessors

/-- A named source text that is handed to the host. -/
structure SourceUnit where
  /-- The file name, unique within one pass. -/
  name : String
  source : String
deriving DecidableEq

namespace Schema

/-- The version of the text below; a change of the text takes a new one. -/
def version : String := "1"

/-- The namespace of the attribute and of the enumeration. -/
def namespaceName : String := "HierarchyAccessors"

/-- The full name of the marker attribute. -/
def attributeName : String := "FromHierarchyAttribute"

/-- The name by which the marker attribute is used. -/
def shortName : String := "FromHierarchy"

/-- The lines that define the attribute and the enumeration. -/
def lines : List String :=
  ["// <auto-generated/>",
   "using System;",
   "",
   "namespace HierarchyAccessors",
   "\x7b",
   "    [AttributeUsage(AttributeTargets.Field, Inherited = false, AllowMultiple = false)]",
   "    internal sealed class FromHierarchyAttribute : Attribute",
   "    \x7b",
   "        public FromHierarchyAttribute(RetrievalSource source)",
   "        \x7b",
   "            Source = source;",
   "        \x7d",
   "",
   "        public RetrievalSource Source \x7b get; \x7d",
   "    \x7d",
   "",
   "    [Flags]",
   "    internal enum RetrievalSource",
   "    \x7b",
   "        Self = 1,",
   "        Descendants = 1 << 1,",
   "        Ancestors = 1 << 2,",
   "    \x7d",
   "\x7d"]

/-- The unit that every pass begins with. -/
def unit : SourceUnit where
  name := "FromHierarchyAttribute.g.cs"
  source := String.join (lines.map (· ++ "\n"))

end Schema

/-- The three places where a dependency can be looked up. -/
inductive SearchScope
  /-- The instance itself. -/
  | itself
  /-- The instance and its children, recursively. -/
  | descendants
  /-- The instance and its parents, recursively. -/
  | ancestors
deriving DecidableEq

/-- The flag of a scope in the enumeration. -/
def SearchScope.flag : SearchScope → Int32
  | itself => 1
  | descendants => 2
  | ancestors => 4

/-- A value of the enumeration. Unknown bits are kept. -/
structure RetrievalSource where
  bits : Int32
deriving DecidableEq

namespace RetrievalSource

/-- The value of an integral constant; none when it does not fit into 32 bits. -/
def ofConstant? (n : Int64) : Option RetrievalSource :=
  if Int32.minValue.toInt ≤ n.toInt ∧ n.toInt ≤ Int32.maxValue.toInt then some ⟨n.toInt32⟩ else none

/-- Whether the flag of a scope is set. -/
def contains (source : RetrievalSource) (scope : SearchScope) : Bool :=
  source.bits &&& scope.flag == scope.flag

/-- The scope whose flag is the whole value. Zero, unions and unknown bits have none. -/
def scope? (source : RetrievalSource) : Option SearchScope :=
  if source.bits = 1 then some .itself
  else if source.bits = 2 then some .descendants
  else if source.bits = 4 then some .ancestors
  else none

theorem scope?_eq_some_iff {source : RetrievalSource} {scope : SearchScope} :
    source.scope? = some scope ↔ source.bits = scope.flag := by
  unfold scope?
  cases scope <;> grind [SearchScope.flag]

end RetrievalSource

end HierarchyAccessors
