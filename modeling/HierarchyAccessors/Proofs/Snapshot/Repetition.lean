import HierarchyAccessors.Proofs.Places
import HierarchyAccessors.Proofs.Snapshot.Reordering

/-!
# The node id that is reported as repeated

Every node of a snapshot has a place: the number of its file, the number of the member on every
level below, and where in the field it stands, with the variables before the arguments of
attributes. `Snapshot.Holds` says which id stands at a place, without any traversal. Places are
ordered as words are in a dictionary, and the ids of a snapshot are checked in that order
(`Snapshot.inOrder_nodeIds`).

**Theorem (`read_checks_in_order`).** A text that can be read as a snapshot is accepted just if no
two places hold one id. Otherwise the refusal names the first place whose id stands at an earlier
one, by its id and the path of its own file.
-/

namespace HierarchyAccessors

/-! ## Places -/

/-- What stands where in a field declaration: behind 0 the variables and behind 1 the arguments, by
list, attribute and argument. -/
inductive FieldDeclaration.Holds (field : FieldDeclaration) : Place → NodeId → Prop
  | declared {i : Nat} {v : Variable} : field.declared[i]? = some v → Holds field [0, i] v.id
  | argument {i j k : Nat} {usages : List Attribute} {usage : Attribute} {e : Expression} :
    field.attributeLists[i]? = some usages → usages[j]? = some usage →
    usage.arguments[k]? = some e → Holds field [1, i, j, k] e.id

/-- What stands where in a member. -/
inductive Member.Holds : Member → Place → NodeId → Prop
  | namespaceDecl {name : String} {members : List Member} {i : Nat} {member : Member}
    {place : Place} {id : NodeId} : members[i]? = some member → member.Holds place id →
    Holds (.namespaceDecl name members) (i :: place) id
  | typeDecl {name : String} {members : List Member} {i : Nat} {member : Member} {place : Place}
    {id : NodeId} : members[i]? = some member → member.Holds place id →
    Holds (.typeDecl name members) (i :: place) id
  | fieldDecl {field : FieldDeclaration} {place : Place} {id : NodeId} : field.Holds place id →
    Holds (.fieldDecl field) place id

/-- What stands where in a snapshot, with the path of the file. -/
inductive Snapshot.Holds (s : Snapshot) : Place → NodeId × String → Prop
  | mk {i j : Nat} {file : SourceFile} {member : Member} {place : Place} {id : NodeId} :
    s.files[i]? = some file → file.members[j]? = some member → member.Holds place id →
    Holds s (i :: j :: place) (id, file.path)

/-! ## The nodes of a snapshot -/

/-- The variables come before the arguments. -/
theorem FieldDeclaration.inOrder_nodeIds (field : FieldDeclaration) :
    InOrder field.Holds field.nodeIds := by
  have declared := inOrder_flatMap (fun v : Variable => inOrder_singleton v.id) 0 field.declared
  have arguments := inOrder_flatMap (fun usages : List Attribute =>
    inOrder_flatMap (fun usage : Attribute =>
      inOrder_flatMap (fun e : Expression => inOrder_singleton e.id) 0 usage.arguments) 0 usages) 0
    field.attributeLists
  have ids : field.nodeIds = (field.declared.flatMap fun v => [v.id]) ++
      field.attributeLists.flatMap fun usages => usages.flatMap fun usage =>
        usage.arguments.flatMap fun e => [e.id] := by
    simp only [nodeIds, attributes, List.map_eq_flatMap, List.flatten_eq_flatMap,
      List.flatMap_assoc, id]
  rw [ids]
  refine ((declared.under 0).append (arguments.under 1) ?_).congr fun place id => ?_
  · rintro _ b _ b' ⟨inner, rfl, -⟩ ⟨inner', rfl, -⟩
    exact List.cons_lt_cons_iff.2 (.inl Nat.one_pos)
  · simp only [heldAmong_zero_iff]
    constructor
    · rintro (⟨_, rfl, i, v, _, found, rfl, rfl, rfl⟩ |
        ⟨_, rfl, i, usages, _, list, rfl, j, usage, _, use, rfl, k, e, _, found, rfl, rfl, rfl⟩)
      · exact .declared found
      · exact .argument list use found
    · rintro (⟨found⟩ | ⟨list, use, found⟩)
      · exact .inl ⟨_, rfl, _, _, _, found, rfl, rfl, rfl⟩
      · exact .inr ⟨_, rfl, _, _, _, list, rfl, _, _, _, use, rfl, _, _, _, found, rfl, rfl, rfl⟩

mutual

theorem Member.inOrder_nodeIds : (member : Member) →
    InOrder member.Holds (member.fields.flatMap (·.nodeIds))
  | .namespaceDecl name members => by
    refine (inOrder_nodeIds_fieldsOf members 0).congr fun place id => ?_
    rw [heldAmong_zero_iff]
    constructor
    · rintro ⟨i, member, inner, found, rfl, held⟩
      exact .namespaceDecl found held
    · rintro (⟨found, held⟩ | _ | _)
      exact ⟨_, _, _, found, rfl, held⟩
  | .typeDecl name members => by
    refine (inOrder_nodeIds_fieldsOf members 0).congr fun place id => ?_
    rw [heldAmong_zero_iff]
    constructor
    · rintro ⟨i, member, inner, found, rfl, held⟩
      exact .typeDecl found held
    · rintro (_ | ⟨found, held⟩ | _)
      exact ⟨_, _, _, found, rfl, held⟩
  | .fieldDecl field => by
    rw [fields, List.flatMap_singleton]
    exact field.inOrder_nodeIds.congr fun place id => ⟨.fieldDecl, fun (.fieldDecl held) => held⟩
  | .other => inOrder_nil fun place id => nofun

theorem Member.inOrder_nodeIds_fieldsOf : (members : List Member) → (first : Nat) →
    InOrder (HeldAmong Member.Holds first members) ((fieldsOf members).flatMap (·.nodeIds))
  | [], _ => inOrder_nil not_heldAmong_nil
  | member :: members, first => by
    rw [fieldsOf, List.flatMap_append]
    exact member.inOrder_nodeIds.cons (inOrder_nodeIds_fieldsOf members (first + 1))

end

theorem Snapshot.inOrder_nodeIds (s : Snapshot) : InOrder s.Holds s.nodeIds := by
  have files := inOrder_flatMap (fun file : SourceFile =>
    (Member.inOrder_nodeIds_fieldsOf file.members 0).map fun id => (id, file.path)) 0 s.files
  refine files.congr fun place node => ?_
  simp only [heldAmong_zero_iff]
  constructor
  · rintro ⟨i, file, _, found, rfl, id, ⟨j, member, inner, among, rfl, held⟩, rfl⟩
    exact .mk found among held
  · rintro ⟨found, among, held⟩
    exact ⟨_, _, _, found, rfl, _, ⟨_, _, _, among, rfl, held⟩, rfl⟩

/-! ## The first repetition -/

namespace Snapshot

/-- The entry that is found comes after entries without repetition, one of which has its id. -/
theorem firstRepeat?_eq_some {seen : List NodeId} {ids : List (NodeId × String)}
    {found : NodeId × String} (h : firstRepeat? seen ids = some found) :
    ∃ earlier later, ids = earlier ++ found :: later ∧ firstRepeat? seen earlier = none ∧
      (found.1 ∈ seen ∨ found.1 ∈ earlier.map (·.1)) := by
  induction ids generalizing seen with
  | nil => cases h
  | cons e ids ih =>
    obtain ⟨id, path⟩ := e
    rw [firstRepeat?] at h
    by_cases known : id ∈ seen
    · rw [if_pos known, Option.some_inj] at h
      subst h
      exact ⟨[], ids, rfl, rfl, .inl known⟩
    · rw [if_neg known] at h
      obtain ⟨earlier, later, rfl, fresh, repeats⟩ := ih h
      refine ⟨(id, path) :: earlier, later, rfl, ?_, ?_⟩
      · rw [firstRepeat?, if_neg known, fresh]
      · rw [List.map_cons, List.mem_cons]
        rcases repeats with old | new
        · rcases List.mem_cons.1 old with same | old
          · exact .inr (.inl same)
          · exact .inl old
        · exact .inr (.inr new)

theorem repeated?_eq_some {s : Snapshot} {found : NodeId × String} (h : s.repeated? = some found) :
    ∃ earlier later, s.nodeIds = earlier ++ found :: later ∧ (earlier.map (·.1)).Nodup ∧
      found.1 ∈ earlier.map (·.1) := by
  obtain ⟨earlier, later, ids, fresh, repeats⟩ := firstRepeat?_eq_some h
  refine ⟨earlier, later, ids, (firstRepeat?_eq_none_iff.1 fresh).1, ?_⟩
  exact repeats.resolve_left List.not_mem_nil

/-- **The ids are checked in the order of their places.** The nodes of a snapshot can be listed by
place. A text that is read as the snapshot is accepted just if the ids of that list are distinct;
otherwise it is refused for the first node in the list whose id an earlier one has, and for the file
in which this node stands. -/
theorem read_checks_in_order {text : String} {s : Snapshot} (parsed : readUnchecked text = .ok s) :
    ∃ listing : List (Place × NodeId × String),
      listing.Pairwise (·.1 < ·.1) ∧
      (∀ place node, (place, node) ∈ listing ↔ s.Holds place node) ∧
      (read text = .ok s ↔ (listing.map (·.2.1)).Nodup) ∧
      (¬(listing.map (·.2.1)).Nodup → ∃ earlier place id path later,
        listing = earlier ++ (place, id, path) :: later ∧ (earlier.map (·.2.1)).Nodup ∧
        id ∈ earlier.map (·.2.1) ∧ read text = .error (.duplicateNode id path)) := by
  obtain ⟨listing, lists, nodes⟩ := s.inOrder_nodeIds
  have ids : listing.map (·.2.1) = s.nodeIds.map (·.1) := by
    rw [← nodes, List.map_map]
    rfl
  refine ⟨listing, lists.sorted, lists.mem_iff, ?_, fun clash => ?_⟩
  · rw [read_eq_ok_iff_readUnchecked, repeated?_eq_none_iff, ids]
    exact and_iff_right parsed
  · rw [ids, ← repeated?_eq_none_iff] at clash
    obtain ⟨⟨id, path⟩, found⟩ := Option.ne_none_iff_exists'.1 clash
    obtain ⟨earlier, later, split, distinct, repeats⟩ := repeated?_eq_some found
    rw [← nodes, List.map_eq_append_iff] at split
    obtain ⟨front, back, rfl, rfl, tail⟩ := split
    obtain ⟨⟨place, node⟩, rest, rfl, rfl, rfl⟩ := List.map_eq_cons_iff.1 tail
    rw [List.map_map] at distinct repeats
    refine ⟨front, place, id, path, rest, rfl, distinct, repeats, ?_⟩
    rw [read, parsed]
    simp only [Except.mapError, bind, Except.bind, found]
    rfl

/-- The id of a variable deep inside the first file is that of an argument in the second, where a
variable and an argument have one id as well. -/
theorem read_checks_in_order_across_files :
    let field : FieldDeclaration := ⟨[], "Body", [⟨7, "_a"⟩]⟩
    let field' : FieldDeclaration := ⟨[[⟨"Range", [⟨7, "x"⟩, ⟨8, "y"⟩]⟩]], "Body", [⟨8, "_b"⟩]⟩
    let file : SourceFile := ⟨"A.cs", [.namespaceDecl "Game" [.typeDecl "Door" [.fieldDecl field]]]⟩
    let file' : SourceFile := ⟨"B.cs", [.other, .fieldDecl field']⟩
    let s : Snapshot := ⟨[file, file'], .empty⟩
    readUnchecked s.canonical = .ok s ∧
      s.Holds [0, 0, 0, 0, 0, 0] (7, "A.cs") ∧ s.Holds [1, 1, 1, 0, 0, 0] (7, "B.cs") ∧
      ∃ listing earlier place later, listing = earlier ++ (place, 7, "B.cs") :: later ∧
        (∀ place node, (place, node) ∈ listing ↔ s.Holds place node) ∧
        ¬(listing.map (·.2.1)).Nodup ∧ (earlier.map (·.2.1)).Nodup ∧
        read s.canonical = .error (.duplicateNode 7 "B.cs") := by
  intro field field' file file' s
  have parsed : readUnchecked s.canonical = .ok s :=
    (Json.Reader.document_eq (reads_snapshot s) (Json.Value.tokens_compact _)).trans
      (if_pos (by decide))
  have refused : read s.canonical = .error (.duplicateNode 7 "B.cs") :=
    (read_eq (Json.Value.tokens_compact _)).trans rfl
  have variableHolds : field.Holds [0, 0] 7 := .declared (v := ⟨7, "_a"⟩) rfl
  have argumentHolds : field'.Holds [1, 0, 0, 0] 7 := .argument (e := ⟨7, "x"⟩) rfl rfl rfl
  have inType : (Member.typeDecl "Door" [.fieldDecl field]).Holds [0, 0, 0] 7 :=
    .typeDecl rfl (.fieldDecl variableHolds)
  have inNamespace : (Member.namespaceDecl "Game" [.typeDecl "Door" [.fieldDecl field]]).Holds
      [0, 0, 0, 0] 7 := .namespaceDecl rfl inType
  obtain ⟨listing, -, nodes, accepted, first⟩ := read_checks_in_order parsed
  have clash : ¬(listing.map (·.2.1)).Nodup := by
    rw [← accepted, refused]
    exact nofun
  obtain ⟨earlier, place, id, path, later, split, distinct, -, named⟩ := first clash
  rw [refused] at named
  cases named
  refine ⟨parsed, ?_, ?_, listing, earlier, place, later, split, nodes, clash, distinct, refused⟩
  · exact .mk (show s.files[0]? = some file from rfl) rfl inNamespace
  · exact .mk (show s.files[1]? = some file' from rfl) rfl (.fieldDecl argumentHolds)

end Snapshot

end HierarchyAccessors
