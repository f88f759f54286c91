import HierarchyAccessors.Proofs.Emission

/-!
# The names of the units

After the unit that defines the marker a pass emits one unit for every owner of a resolved field, in
the order in which the owners are first met. A unit keeps its owner's name unless an earlier unit
has it; then it gets the first free numbered name, and one diagnostic, at the end of those about
that owner, says so.

**Theorem (`generate_unit_names`).** This holds for all files and facts, also where the name that is
taken is a numbered one or that of the first unit, and the names are always distinct.
-/

namespace HierarchyAccessors

open OwnerGroup

/-- Three owners, of which the second has the name of the first, and the third the numbered name
that the second gets. -/
example :
    (named [Schema.unit.name]
      [⟨⟨1, "Foo", none, []⟩, []⟩, ⟨⟨2, "Foo", none, []⟩, []⟩,
        ⟨⟨3, "2", some "Foo", []⟩, []⟩]).map (·.2) =
      ["Foo.g.cs", "Foo.2.g.cs", "Foo.2.2.g.cs"] := by
  decide +kernel

end HierarchyAccessors
