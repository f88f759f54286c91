import HierarchyAccessors.Marker
import HierarchyAccessors.Proofs.Places
import Mathlib.Logic.Relation

/-!
# Which field declarations are found

A field declaration has a place: the number of its file and the numbers of the members that lead
there. `FieldAt` says which declaration stands at a place, without any traversal, and
`FieldDeclaration.FirstMarker` which of its attributes is the first marker, without any search.

**Theorem (`markedFields_listed`).** The declarations that are found are those with a marker, in the
order of their places and each place once, with their first marker and with the file that contains
them. Files may be appended, and neither wrapping members in namespaces and types nor adding members
of no concern changes what is found.

That members are visited depth first gives the order: everything behind one number comes before
everything behind the next (`Member.inOrder_fieldsOf`, with one case for each kind of member).
-/

namespace HierarchyAccessors

open Relation (ReflTransGen)

/-! ## Where declarations stand -/

/-- Which declaration stands where in a member. -/
inductive Member.FieldAt : Member → Place → FieldDeclaration → Prop
  | namespaceDecl {name : String} {members : List Member} {i : Nat} {member : Member}
    {place : Place} {field : FieldDeclaration} :
    members[i]? = some member → member.FieldAt place field →
    FieldAt (.namespaceDecl name members) (i :: place) field
  | typeDecl {name : String} {members : List Member} {i : Nat} {member : Member} {place : Place}
    {field : FieldDeclaration} : members[i]? = some member → member.FieldAt place field →
    FieldAt (.typeDecl name members) (i :: place) field
  | fieldDecl (field : FieldDeclaration) : FieldAt (.fieldDecl field) [] field

/-- Which declaration stands where, and in which file. -/
inductive FieldAt (files : List SourceFile) : Place → SourceFile × FieldDeclaration → Prop
  | mk {i j : Nat} {file : SourceFile} {member : Member} {place : Place}
    {field : FieldDeclaration} :
    files[i]? = some file → file.members[j]? = some member → member.FieldAt place field →
    FieldAt files (i :: j :: place) (file, field)

mutual

theorem Member.inOrder_fields : (member : Member) → InOrder member.FieldAt member.fields
  | .namespaceDecl name members => by
    refine (inOrder_fieldsOf members 0).congr fun place field => ?_
    rw [heldAmong_zero_iff]
    constructor
    · rintro ⟨i, member, inner, found, rfl, held⟩
      exact .namespaceDecl found held
    · rintro (⟨found, held⟩ | _ | _)
      exact ⟨_, _, _, found, rfl, held⟩
  | .typeDecl name members => by
    refine (inOrder_fieldsOf members 0).congr fun place field => ?_
    rw [heldAmong_zero_iff]
    constructor
    · rintro ⟨i, member, inner, found, rfl, held⟩
      exact .typeDecl found held
    · rintro (_ | ⟨found, held⟩ | _)
      exact ⟨_, _, _, found, rfl, held⟩
  | .fieldDecl field => by
    refine (inOrder_singleton field).congr fun place field' => ?_
    constructor
    · rintro ⟨rfl, rfl⟩
      exact .fieldDecl field'
    · rintro (_ | _ | _)
      exact ⟨rfl, rfl⟩
  | .other => inOrder_nil fun place field => nofun

theorem Member.inOrder_fieldsOf : (members : List Member) → (first : Nat) →
    InOrder (HeldAmong Member.FieldAt first members) (fieldsOf members)
  | [], _ => inOrder_nil not_heldAmong_nil
  | member :: members, first =>
    member.inOrder_fields.cons (inOrder_fieldsOf members (first + 1))

end

theorem inOrder_fields (files : List SourceFile) :
    InOrder (FieldAt files) (files.flatMap fun file => file.fields.map (file, ·)) := by
  have each := inOrder_flatMap (fun file : SourceFile =>
    (Member.inOrder_fieldsOf file.members 0).map (file, ·)) 0 files
  refine each.congr fun place found => ?_
  simp only [heldAmong_zero_iff]
  constructor
  · rintro ⟨i, file, _, found, rfl, field, ⟨j, member, inner, among, rfl, held⟩, rfl⟩
    exact .mk found among held
  · rintro ⟨found, among, held⟩
    exact ⟨_, _, _, found, rfl, _, ⟨_, _, _, among, rfl, held⟩, rfl⟩

/-! ## The first marker -/

/-- The attribute is a marker, and none of those before it in the lists is one. -/
def FieldDeclaration.FirstMarker (field : FieldDeclaration) (marker : Attribute) : Prop :=
  ∃ before later, field.attributeLists.flatten = before ++ marker :: later ∧
    isMarker marker.name ∧ ∀ usage ∈ before, ¬isMarker usage.name

theorem FieldDeclaration.marker?_eq_some_iff {field : FieldDeclaration} {marker : Attribute} :
    field.marker? = some marker ↔ field.FirstMarker marker := by
  rw [marker?, attributes, List.find?_eq_some_iff_append]
  constructor
  · rintro ⟨named, before, later, split, others⟩
    exact ⟨before, later, split, named, fun usage mem => by simpa using others usage mem⟩
  · rintro ⟨before, later, split, named, others⟩
    exact ⟨named, before, later, split, fun usage mem => by simpa using others usage mem⟩

/-- Some attribute of some list is a marker. -/
def FieldDeclaration.Marked (field : FieldDeclaration) : Prop :=
  ∃ usages ∈ field.attributeLists, ∃ usage ∈ usages, isMarker usage.name

theorem FieldDeclaration.marked_iff {field : FieldDeclaration} :
    field.Marked ↔ ∃ marker, field.FirstMarker marker := by
  have found : field.Marked ↔ field.marker?.isSome := by
    simp only [Marked, marker?, attributes, List.find?_isSome, List.mem_flatten]
    constructor
    · rintro ⟨usages, list, usage, mem, named⟩
      exact ⟨usage, ⟨usages, list, mem⟩, named⟩
    · rintro ⟨usage, ⟨usages, list, mem⟩, named⟩
      exact ⟨usages, list, usage, mem, named⟩
  simp only [found, Option.isSome_iff_exists, marker?_eq_some_iff]

/-! ## What is found -/

/-- What is found at a place: the declaration there, if it has a marker, and its first one. -/
def MarkedAt (files : List SourceFile) (place : Place) (found : MarkedField) : Prop :=
  FieldAt files place (found.file, found.declaration) ∧
    found.declaration.FirstMarker found.marker

theorem inOrder_markedFields (files : List SourceFile) :
    InOrder (MarkedAt files) (markedFields files) := by
  have chosen := (inOrder_fields files).filterMap fun (file, field) =>
    field.marker?.map fun marker => MarkedField.mk file field marker
  rw [List.filterMap_flatMap] at chosen
  simp only [List.filterMap_map] at chosen
  refine chosen.congr fun place found => ?_
  constructor
  · rintro ⟨⟨file, field⟩, held, value⟩
    obtain ⟨marker, first, rfl⟩ := Option.map_eq_some_iff.1 value
    exact ⟨held, FieldDeclaration.marker?_eq_some_iff.1 first⟩
  · rintro ⟨held, first⟩
    refine ⟨_, held, ?_⟩
    rw [FieldDeclaration.marker?_eq_some_iff.2 first, Option.map_some]

/-! ## Wrapping members -/

/-- Members are wrapped in a namespace or a type, or one of no concern is added, somewhere among the
members or inside one of them. -/
inductive Member.Wrapped : List Member → List Member → Prop
  | namespaceDecl (name : String) (members : List Member) :
    Wrapped members [.namespaceDecl name members]
  | typeDecl (name : String) (members : List Member) : Wrapped members [.typeDecl name members]
  | other : Wrapped [] [.other]
  | inNamespace (name : String) {members members' : List Member} (h : Wrapped members members') :
    Wrapped [.namespaceDecl name members] [.namespaceDecl name members']
  | inType (name : String) {members members' : List Member} (h : Wrapped members members') :
    Wrapped [.typeDecl name members] [.typeDecl name members']
  | within (before later : List Member) {members members' : List Member}
    (h : Wrapped members members') :
    Wrapped (before ++ members ++ later) (before ++ members' ++ later)

theorem Member.Wrapped.fieldsOf_eq {members members' : List Member} (h : Wrapped members members') :
    fieldsOf members' = fieldsOf members := by
  induction h with
  | namespaceDecl | typeDecl | other => simp [fieldsOf, fields]
  | inNamespace _ _ ih | inType _ _ ih => simp [fieldsOf, fields, ih]
  | within before later _ ih => simp only [fieldsOf_append, ih]

theorem Member.fieldsOf_eq_of_wrapped {members members' : List Member}
    (h : ReflTransGen Member.Wrapped members members') : fieldsOf members' = fieldsOf members := by
  induction h with
  | refl => rfl
  | tail _ step ih => exact step.fieldsOf_eq.trans ih

/-- The file under the same path, with its members wrapped any number of times. -/
structure SourceFile.Wraps (file file' : SourceFile) : Prop where
  path : file'.path = file.path
  members : ReflTransGen Member.Wrapped file.members file'.members

theorem SourceFile.Wraps.fields_eq {file file' : SourceFile} (h : file.Wraps file') :
    file'.fields = file.fields :=
  Member.fieldsOf_eq_of_wrapped h.members

/-- The same declaration and the same marker, in the same file with its members wrapped. -/
structure MarkedField.Wraps (found found' : MarkedField) : Prop where
  file : found.file.Wraps found'.file
  declaration : found'.declaration = found.declaration
  marker : found'.marker = found.marker

theorem SourceFile.Wraps.markedFields {file file' : SourceFile} (h : file.Wraps file') :
    List.Forall₂ MarkedField.Wraps file.markedFields file'.markedFields := by
  unfold SourceFile.markedFields
  rw [h.fields_eq]
  induction file.fields with
  | nil => exact .nil
  | cons field fields ih =>
    rw [List.filterMap_cons, List.filterMap_cons]
    cases field.marker? with
    | none => exact ih
    | some marker => exact .cons ⟨h, rfl, rfl⟩ ih

theorem forall₂_markedFields {files files' : List SourceFile}
    (h : List.Forall₂ SourceFile.Wraps files files') :
    List.Forall₂ MarkedField.Wraps (markedFields files) (markedFields files') :=
  List.rel_flatMap h fun _ _ wraps => wraps.markedFields

/-! ## Everything together -/

/-- **Exactly the marked declarations are found, in source order.** What is found can be listed by
place, with places that increase and at each the declaration that stands there, its file and its
first marker; a declaration is missing from the list just if none of its attributes is a marker. Of
files one after the other it is what is found in each, and it is the same if members are wrapped or
members of no concern are added. -/
theorem markedFields_listed :
    (∀ files : List SourceFile, ∃ listing : List (Place × MarkedField),
      listing.map (·.2) = markedFields files ∧ listing.Pairwise (·.1 < ·.1) ∧
      (∀ place found, (place, found) ∈ listing ↔
        FieldAt files place (found.file, found.declaration) ∧
          found.declaration.FirstMarker found.marker) ∧
      ∀ place file field, FieldAt files place (file, field) →
        (place ∈ listing.map (·.1) ↔ field.Marked)) ∧
    (∀ files more : List SourceFile,
      markedFields (files ++ more) = markedFields files ++ markedFields more) ∧
    ∀ files files' : List SourceFile, List.Forall₂ SourceFile.Wraps files files' →
      List.Forall₂ MarkedField.Wraps (markedFields files) (markedFields files') := by
  refine ⟨fun files => ?_, markedFields_append, fun files files' => forall₂_markedFields⟩
  obtain ⟨listing, lists, values⟩ := inOrder_markedFields files
  refine ⟨listing, values, lists.sorted, lists.mem_iff, fun place file field held => ?_⟩
  constructor
  · intro mem
    obtain ⟨⟨_, found⟩, member, rfl⟩ := List.mem_map.1 mem
    obtain ⟨there, first⟩ := (lists.mem_iff _ _).1 member
    obtain ⟨-, rfl⟩ := Prod.mk.inj ((inOrder_fields files).eq_of_holds held there)
    exact FieldDeclaration.marked_iff.2 ⟨_, first⟩
  · intro marked
    obtain ⟨marker, first⟩ := FieldDeclaration.marked_iff.1 marked
    have mem := (lists.mem_iff place ⟨file, field, marker⟩).2 ⟨held, first⟩
    exact List.mem_map_of_mem mem

/-- A nested type stands between two fields, and the last declaration has two variables and three
markers. With the types in a namespace and a member of no concern added, the same is found. -/
theorem markedFields_listed_between_fields :
    let marker : Attribute := ⟨"FromHierarchy", [⟨1, "Self"⟩]⟩
    let qualified : Attribute := ⟨"global::FromHierarchyAttribute", [⟨2, "All"⟩]⟩
    let first : FieldDeclaration := ⟨[[marker]], "Body", [⟨3, "_first"⟩]⟩
    let nested : FieldDeclaration := ⟨[[marker]], "Body", [⟨4, "_nested"⟩]⟩
    let unmarked : FieldDeclaration := ⟨[[⟨"Range", []⟩]], "int", [⟨5, "_range"⟩]⟩
    let last : FieldDeclaration :=
      ⟨[[⟨"Range", []⟩], [qualified, marker], [marker]], "Body[]", [⟨6, "_a"⟩, ⟨7, "_b"⟩]⟩
    let inner : Member := .typeDecl "Inner" [.fieldDecl nested]
    let outer : Member :=
      .typeDecl "Outer" [.fieldDecl first, inner, .fieldDecl unmarked, .fieldDecl last]
    let file : SourceFile := ⟨"A.cs", [outer]⟩
    let file' : SourceFile := ⟨"A.cs", [.namespaceDecl "Game" [.other, outer]]⟩
    (markedFields [file]).map (fun found => (found.declaration, found.marker)) =
        [(first, marker), (nested, marker), (last, qualified)] ∧
      FieldAt [file] [0, 0, 1, 0] (file, nested) ∧
      FieldAt [file] [0, 0, 2] (file, unmarked) ∧
      (∃ listing : List (Place × MarkedField), listing.map (·.2) = markedFields [file] ∧
        listing.Pairwise (·.1 < ·.1) ∧ [0, 0, 1, 0] ∈ listing.map (·.1) ∧
        [0, 0, 2] ∉ listing.map (·.1)) ∧
      List.Forall₂ MarkedField.Wraps (markedFields [file]) (markedFields [file']) := by
  intro marker qualified first nested unmarked last inner outer file file'
  have inInner : inner.FieldAt [0] nested := .typeDecl rfl (.fieldDecl nested)
  have inNested : FieldAt [file] [0, 0, 1, 0] (file, nested) := .mk rfl rfl (.typeDecl rfl inInner)
  have inOuter : FieldAt [file] [0, 0, 2] (file, unmarked) :=
    .mk rfl rfl (.typeDecl rfl (.fieldDecl unmarked))
  have added : Member.Wrapped [outer] [.other, outer] := .within [] [outer] .other
  have wraps : file.Wraps file' := ⟨rfl, .tail (.single added) (.namespaceDecl "Game" _)⟩
  refine ⟨by decide, inNested, inOuter, ?_,
    markedFields_listed.2.2 [file] [file'] (.cons wraps .nil)⟩
  obtain ⟨listing, values, sorted, -, listed⟩ := markedFields_listed.1 [file]
  refine ⟨listing, values, sorted, (listed _ _ _ inNested).2 ?_, mt (listed _ _ _ inOuter).1 ?_⟩
  · exact ⟨[marker], .head _, marker, .head _, by decide⟩
  · rintro ⟨usages, list, usage, mem, named⟩
    cases List.mem_singleton.1 list
    cases List.mem_singleton.1 mem
    exact absurd named (by decide)

end HierarchyAccessors
