import HierarchyAccessors.Synthesis

/-!
# The generation pass

A pass finds the marked fields, resolves them, groups them by owner and writes one unit for each
group, after the unit that defines the marker. The names of the units are distinct: where a name
is taken already, the unit gets the first free numbered name, and a diagnostic says so.
-/

namespace HierarchyAccessors

/-- What a pass produces. -/
structure Output where
  units : List SourceUnit
  diagnostics : List Diagnostic
deriving DecidableEq

namespace Output

/-- The first unit with the given name. -/
def unit? (output : Output) (name : String) : Option SourceUnit :=
  output.units.find? (·.name == name)

/-- Whether nothing degraded. -/
def hasNoDiagnostics (output : Output) : Bool :=
  output.diagnostics.isEmpty

end Output

/-! ## Numbered names -/

/-- The name without the suffix of units, if it ends in it. -/
def unitStem (name : String) : String :=
  let cs := name.toList
  let suffix := unitSuffix.toList
  if suffix.isSuffixOf cs then String.ofList (cs.take (cs.length - suffix.length)) else name

/-- The numbered form of a unit's name. -/
def numberedName (name : String) (n : Nat) : String :=
  unitStem name ++ "." ++ Nat.repr n ++ unitSuffix

/-- The first of `count` numbers from `n` on whose numbered name is free, or the number after
them. -/
def firstFree (name : String) (taken : List String) : (count n : Nat) → Nat
  | 0, n => n
  | count + 1, n =>
    if numberedName name n ∈ taken then firstFree name taken count (n + 1) else n

/-- The first numbered name that is not taken, counting from 2. One of as many numbers as there
are names, and one more, is free. -/
def freeName (name : String) (taken : List String) : String :=
  numberedName name (firstFree name taken (taken.length + 1) 2)

/-! ## The pass -/

/-- The diagnostic for a unit that could not keep its name. -/
def NamedType.renamed (owner : NamedType) (name newName : String) : Diagnostic where
  kind := .duplicateUnitName
  owner := some owner.fullName
  field := none
  message := s!"unit `{name}` is taken; emitted as `{newName}`"

/-- Adds the unit of a group and the diagnostics about it. -/
def Output.add (output : Output) (group : OwnerGroup) : Output :=
  match group.unit? with
  | none => output
  | some unit =>
    let taken := output.units.map (·.name)
    if unit.name ∈ taken then
      let newName := freeName unit.name taken
      { units := output.units ++ [{ unit with name := newName }]
        diagnostics := output.diagnostics ++ group.diagnostics ++
          [group.owner.renamed unit.name newName] }
    else
      { units := output.units ++ [unit]
        diagnostics := output.diagnostics ++ group.diagnostics }

/-- One pass over the files of a compilation. -/
def generate (files : List SourceFile) (facts : Facts) : Output :=
  let resolution := resolve (markedFields files) facts
  (OwnerGroup.ofFields resolution.fields).foldl .add
    ⟨[Schema.unit], resolution.diagnostics⟩

end HierarchyAccessors
