import HierarchyAccessors.Proofs.Independence
import HierarchyAccessors.Proofs.Json.Keyed
import HierarchyAccessors.Proofs.Json.Legible
import HierarchyAccessors.Proofs.Snapshot.Reordering

/-!
# Members of unfamiliar kinds

A host may write members of kinds that are not known here. `Extended` relates a snapshot to the
trees that are its written form with such objects put into lists of members, at any place and in
any number, and to the snapshot with `other` in these places.

**Theorem (`read_extended`).** A text of an extended tree is read as the snapshot with `other` in
the place of each new object, and a pass gives the same output for it as before.

The members are read in an induction over `Extended`. A new object is put off as `other` because
its tag is unfamiliar (`readWith_unfamiliar`), whatever else it holds, so long as it can be read as
a whole; the rest is as without the new objects. That the ids do not matter, and the output is the
same, is so because both are made from the fields, and there are none in `other`
(`Extended.flatMap_eq`).

One thing stands in the way of new objects: a number that is infinite as a double. As the reader
computes it, that is so of the largest double itself (`not_read_extended_in_range`).
-/

namespace HierarchyAccessors

open Json (Fault Numeral Quoted Reader Tree Value bind_eq_ok_iff keyed strictFault?_array
  strictFault?_string textNesting toTree_array toTree_object)
open Json.Reader

/-! ## Unfamiliar objects -/

/-- An object with one tag, which names no kind of member that is known, and with any content that
is legible. -/
structure Unfamiliar (inRange : Numeral → Prop) (t : Tree) : Prop where
  tagged : ∃ es key tag kind, t = .object es .closed ∧
    es.filter (isTag ·.1) = [(key, .string tag)] ∧ tag.decode = .ok kind ∧
    kind ≠ "namespace" ∧ kind ≠ "type" ∧ kind ≠ "field"
  legible : t.Legible inRange

/-! ## Extended trees -/

/-- What is written with an unfamiliar kind, at any place among its entries, is unfamiliar. -/
theorem unfamiliar_toTree {inRange : Numeral → Prop} {es : List (String × Value)} {kind : String}
    (single : es.filter (·.1 = "kind") = [("kind", .string kind)])
    (foreign : kind ≠ "namespace" ∧ kind ≠ "type" ∧ kind ≠ "field")
    (numbers : ∀ n ∈ (Value.object es).toTree.numbers, inRange n) :
    Unfamiliar inRange (Value.object es).toTree where
  tagged := by
    have tags : (keyed (es.map fun e => (e.1, e.2.toTree))).filter (isTag ·.1) =
        keyed [("kind", (Value.string kind).toTree)] := by
      rw [filter_isTag_keyed, List.filter_map]
      exact congrArg (fun es => keyed (es.map fun e : String × Value => (e.1, e.2.toTree))) single
    exact ⟨_, _, _, kind, toTree_object es, tags, Quoted.decode_closed_encode kind, foreign⟩
  legible := Value.legible_toTree numbers

namespace Member

/-- The written form of a namespace or type with the given members. -/
def containerTree (kind name : String) (members : List Tree) : Tree :=
  .object (keyed [("kind", (Value.string kind).toTree), ("name", (Value.string name).toTree),
    ("members", .array members .closed)]) .closed

/-- The trees are those of the first members with new objects among them, and the second members are
the first with `other` in the place of each new object. -/
inductive Extended (new : Tree → Prop) : List Member → List Tree → List Member → Prop
  | nil : Extended new [] [] []
  | insert {t : Tree} (isNew : new t) {members members' : List Member} {ts : List Tree}
      (more : Extended new members ts members') :
      Extended new members (t :: ts) (.other :: members')
  /-- A member is written as it is. -/
  | keep (member : Member) {members members' : List Member} {ts : List Tree}
      (more : Extended new members ts members') :
      Extended new (member :: members) (member.encode.toTree :: ts) (member :: members')
  /-- New objects are put into the members of a namespace or type. -/
  | within {kind : String} {k : Kind} {make : String → List Member → Member}
      (sort : Container kind k make) (name : String) {inner inner' members members' : List Member}
      {us ts : List Tree} (deeper : Extended new inner us inner')
      (more : Extended new members ts members') :
      Extended new (make name inner :: members) (containerTree kind name us :: ts)
        (make name inner' :: members')

end Member

/-- The written form of a file with the given members. -/
def SourceFile.fileTree (path : String) (members : List Tree) : Tree :=
  .object (keyed [("path", (Value.string path).toTree), ("members", .array members .closed)])
    .closed

/-- New objects are put into the members of files. -/
inductive SourceFile.Extended (new : Tree → Prop) :
    List SourceFile → List Tree → List SourceFile → Prop
  | nil : Extended new [] [] []
  | cons (path : String) {members members' : List Member} {us : List Tree}
      (inner : Member.Extended new members us members') {files files' : List SourceFile}
      {ts : List Tree} (more : Extended new files ts files') :
      Extended new (⟨path, members⟩ :: files) (fileTree path us :: ts) (⟨path, members'⟩ :: files')

/-- New objects are put into the members of a snapshot. -/
inductive Snapshot.Extended (new : Tree → Prop) : Snapshot → Tree → Snapshot → Prop
  | mk (facts : FactTables) {files files' : List SourceFile} {ts : List Tree}
      (inner : SourceFile.Extended new files ts files') :
      Extended new ⟨files, facts⟩
        (.object (keyed [("trees", .array ts .closed), ("facts", facts.encode.toTree)]) .closed)
        ⟨files', facts⟩

/-! ## Without new objects -/

theorem Member.Extended.refl (new : Tree → Prop) (members : List Member) :
    Extended new members (members.map (·.encode.toTree)) members := by
  induction members with
  | nil => exact .nil
  | cons member members ih => exact .keep member ih

theorem toTree_encodeList (members : List Member) :
    (Value.array (Member.encodeList members)).toTree =
      .array (members.map (·.encode.toTree)) .closed := by
  rw [toTree_array, Member.encodeList_eq_map, List.map_map]
  rfl

theorem SourceFile.Extended.refl (new : Tree → Prop) (files : List SourceFile) :
    Extended new files (files.map (·.encode.toTree)) files := by
  induction files with
  | nil => exact .nil
  | cons file files ih =>
    have first := Extended.cons file.path (Member.Extended.refl new file.members) ih
    rw [fileTree, ← toTree_encodeList] at first
    have written := toTree_object
      [("path", .string file.path), ("members", .array (Member.encodeList file.members))]
    rw [List.map_cons, SourceFile.encode, written]
    exact first

/-- With no new object an extended tree is the written form. -/
theorem Snapshot.Extended.refl (new : Tree → Prop) (s : Snapshot) :
    Extended new s s.encode.toTree s := by
  have written := toTree_object
    [("trees", .array (s.files.map SourceFile.encode)), ("facts", s.facts.encode)]
  rw [Snapshot.encode, written, List.map_cons, toTree_array, List.map_map]
  exact .mk s.facts (SourceFile.Extended.refl new s.files)

/-! ## No fields are added -/

variable {new : Tree → Prop}

theorem Member.Extended.fieldsOf_eq {members members' : List Member} {ts : List Tree}
    (h : Extended new members ts members') : fieldsOf members' = fieldsOf members := by
  induction h with
  | nil => rfl
  | insert _ _ ih =>
    rw [fieldsOf, fields, List.nil_append]
    exact ih
  | keep member _ ih => rw [fieldsOf, fieldsOf, ih]
  | within sort name _ _ deeper ih =>
    cases sort <;> rw [fieldsOf, fieldsOf, ih, fields, fields, deeper]

/-- Whatever is taken from the fields of the files and their paths is the same. -/
theorem SourceFile.Extended.flatMap_eq {α : Type} {files files' : List SourceFile} {ts : List Tree}
    (h : Extended new files ts files') (take : String → List FieldDeclaration → List α) :
    (files'.flatMap fun file => take file.path file.fields) =
      files.flatMap fun file => take file.path file.fields := by
  induction h with
  | nil => rfl
  | cons path inner _ ih =>
    rw [List.flatMap_cons, List.flatMap_cons, ih, SourceFile.fields, SourceFile.fields,
      inner.fieldsOf_eq]

theorem SourceFile.Extended.generate_eq {files files' : List SourceFile} {ts : List Tree}
    (h : Extended new files ts files') (facts : Facts) :
    generate files' facts = generate files facts := by
  have same : markings files' = markings files :=
    h.flatMap_eq fun _ fields => fields.filterMap FieldDeclaration.marking?
  apply generate_congr
  rw [outcomes_eq, outcomes_eq, same]

theorem Snapshot.Extended.repeated?_eq {s s' : Snapshot} {t : Tree} (h : Extended new s t s') :
    s'.repeated? = s.repeated? := by
  obtain @⟨facts, files, files', ts, inner⟩ := h
  have same : nodeIds ⟨files', facts⟩ = nodeIds ⟨files, facts⟩ :=
    inner.flatMap_eq fun path fields =>
      (fields.flatMap FieldDeclaration.nodeIds).map fun id => (id, path)
  rw [repeated?, repeated?, same]

/-! ## Reading an unfamiliar object -/

namespace Member

theorem kind_unfamiliar {tag : Quoted} {kind : String} (spells : tag.decode = .ok kind)
    (not_namespace : kind ≠ "namespace") (not_type : kind ≠ "type") (not_field : kind ≠ "field")
    (nested : Bool) : Kind.read nested (.string tag) = .ok .other := by
  simp only [Kind.read, spells, bind, Except.bind]
  rfl

/-- It is read as a whole, and then put off. -/
theorem readWith_unfamiliar {t : Tree} (h : Unfamiliar (·.fitsDouble = true) t) {depth : Nat}
    (shallow : t.nesting ≤ depth) (member : Tree → Except Fault Member) (nested : Bool) :
    readWith member nested depth t = .ok .other := by
  obtain
    ⟨⟨es, key, tag, kind, rfl, single, spells, not_namespace, not_type, not_field⟩, legible⟩ := h
  obtain ⟨depth, rfl⟩ := Nat.exists_eq_add_of_le' (Nat.le_of_add_left_le shallow)
  have strict := Tree.strictFault?_eq_none_of_legible legible shallow
  obtain ⟨entries, -⟩ := Tree.strictFault?_object_eq_none_iff.1 strict
  have has : HasTag (Kind.read nested) depth es .other := by
    refine ⟨fun e he => (entries e he).1, ⟨_, single, ?_⟩, fun e he => ?_⟩
    · exact kind_unfamiliar spells not_namespace not_type not_field nested
    · exact (entries e (List.mem_filter.1 he).1).2
  exact bind_eq_ok_iff.2 ⟨_, tagged_object_eq_ok_iff.2 ⟨has, rfl, rfl⟩, rfl⟩

end Member

/-! ## Reading extended trees -/

namespace Member

theorem nesting_containerTree (kind name : String) (us : List Tree) :
    (containerTree kind name us).nesting = Tree.itemsNesting us + 2 := by
  simp [containerTree, keyed, Value.toTree, Tree.nesting, Tree.entriesNesting]

theorem strictFault?_containerTree (kind name : String) {us : List Tree} {depth : Nat}
    (strict : ∀ u ∈ us, u.strictFault? depth = none) :
    (containerTree kind name us).strictFault? (depth + 2) = none := by
  refine Tree.strictFault?_object_eq_none_iff.2 ⟨Json.strict_keyed ?_, rfl⟩
  simp [strictFault?_string, strictFault?_array strict]

theorem readBody_keyed {member : Tree → Except Fault Member} {us : List Tree}
    {members : List Member} (each : us.mapM member = .ok members) (name : String) (depth : Nat) :
    readBody member (depth + 2)
      (.object (keyed [("name", (Value.string name).toTree), ("members", .array us .closed)])
        .closed) = .ok (name, members) := by
  have parts : record
      [.of "name" string fun name (p : Parts) => { p with name },
        .of "members" (Reader.list fun _ => member) fun members p => { p with members }] {}
      (depth + 2)
      (.object (keyed [("name", (Value.string name).toTree), ("members", .array us .closed)])
        .closed) = .ok ⟨some name, members⟩ :=
    record_object_eq_ok_iff.2 ⟨entries_keyed rfl (by simp) (string_toTree name (depth + 1))
      (entries_keyed rfl (by simp) (list_eq_ok_iff.2 ⟨_, us, rfl, rfl, each⟩) rfl), rfl⟩
  exact bind_eq_ok_iff.2 ⟨_, parts, rfl⟩

/-- The members are read two containers further in. -/
theorem readAt_containerTree {kind : String} {k : Kind} {make : String → List Member → Member}
    (sort : Container kind k make) (nested : Bool) (name : String) {us : List Tree}
    {members : List Member} {depth : Nat} (each : us.mapM (readAt true depth) = .ok members)
    (strict : ∀ u ∈ us, u.strictFault? depth = none) :
    readAt nested (depth + 2) (containerTree kind name us) = .ok (make name members) := by
  have judge : Kind.read nested (Value.string kind).toTree = .ok k := by
    cases sort <;> exact kind_string nested _
  have split : tagged (Kind.read nested) (depth + 2) (containerTree kind name us) =
      .ok (k, .object (keyed [("name", (Value.string name).toTree),
        ("members", .array us .closed)]) .closed) :=
    tagged_keyed judge (by simp) (by simp [strictFault?_string, strictFault?_array strict])
  have content := readBody_keyed each name depth
  refine bind_eq_ok_iff.2 ⟨_, split, ?_⟩
  cases sort <;> exact Json.content_eq_ok_iff.2 (bind_eq_ok_iff.2 ⟨_, content, rfl⟩)

variable {members members' : List Member} {ts : List Tree}

/-- Extended trees can be read as a whole. -/
theorem Extended.strict (h : Extended (Unfamiliar (·.fitsDouble = true)) members ts members')
    {depth : Nat} (shallow : Tree.itemsNesting ts ≤ depth) :
    ∀ t ∈ ts, t.strictFault? depth = none := by
  induction h generalizing depth with
  | nil => simp
  | insert isNew _ ih =>
    obtain ⟨here, rest⟩ := Nat.max_le.1 shallow
    exact List.forall_mem_cons.2
      ⟨Tree.strictFault?_eq_none_of_legible isNew.legible here, ih rest⟩
  | keep member _ ih =>
    obtain ⟨here, rest⟩ := Nat.max_le.1 shallow
    refine List.forall_mem_cons.2 ⟨?_, ih rest⟩
    rw [Value.nesting_toTree] at here
    rw [Value.strictFault?_toTree depth _ (fits_encode member), if_pos here]
  | within sort name _ _ deeper ih =>
    obtain ⟨here, rest⟩ := Nat.max_le.1 shallow
    rw [nesting_containerTree] at here
    obtain ⟨depth, rfl⟩ := Nat.exists_eq_add_of_le' (Nat.le_of_add_left_le here)
    have inside := deeper (Nat.le_of_add_le_add_right here)
    exact List.forall_mem_cons.2 ⟨strictFault?_containerTree _ name inside, ih rest⟩

/-- Each new object is read as `other`, and all else as it stands. -/
theorem Extended.mapM_readAt (h : Extended (Unfamiliar (·.fitsDouble = true)) members ts members')
    {depth : Nat} (shallow : Tree.itemsNesting ts ≤ depth) (nested : Bool) :
    ts.mapM (readAt nested depth) = .ok members' := by
  induction h generalizing depth nested with
  | nil => rfl
  | insert isNew _ ih =>
    obtain ⟨here, rest⟩ := Nat.max_le.1 shallow
    refine mapM_cons_eq_ok_iff.2 ⟨_, _, ?_, ih rest nested, rfl⟩
    match depth with
    | 0 | 1 | depth + 2 => exact readWith_unfamiliar isNew here _ nested
  | keep member _ ih =>
    obtain ⟨here, rest⟩ := Nat.max_le.1 shallow
    rw [Value.nesting_toTree] at here
    have value : readAt nested depth member.encode.toTree = .ok member :=
      (readsAt_encode nested depth member).trans (if_pos here)
    exact mapM_cons_eq_ok_iff.2 ⟨_, _, value, ih rest nested, rfl⟩
  | within sort name inner _ deeper ih =>
    obtain ⟨here, rest⟩ := Nat.max_le.1 shallow
    rw [nesting_containerTree] at here
    obtain ⟨depth, rfl⟩ := Nat.exists_eq_add_of_le' (Nat.le_of_add_left_le here)
    have enough := Nat.le_of_add_le_add_right here
    have value := readAt_containerTree sort nested name (deeper enough true) (inner.strict enough)
    exact mapM_cons_eq_ok_iff.2 ⟨_, _, value, ih rest nested, rfl⟩

end Member

namespace SourceFile

theorem nesting_fileTree (path : String) (us : List Tree) :
    (fileTree path us).nesting = Tree.itemsNesting us + 2 := by
  simp [fileTree, keyed, Value.toTree, Tree.nesting, Tree.entriesNesting]

theorem read_fileTree (path : String) {us : List Tree} {members : List Member} {depth : Nat}
    (each : us.mapM (Member.read depth) = .ok members) :
    read (depth + 2) (fileTree path us) = .ok ⟨path, members⟩ :=
  record_object_eq_ok_iff.2 ⟨entries_keyed rfl (by simp) (string_toTree path (depth + 1))
    (entries_keyed rfl (by simp) (list_eq_ok_iff.2 ⟨_, us, rfl, rfl, each⟩) rfl), rfl⟩

theorem Extended.mapM_read {files files' : List SourceFile} {ts : List Tree}
    (h : Extended (Unfamiliar (·.fitsDouble = true)) files ts files') {depth : Nat}
    (shallow : Tree.itemsNesting ts ≤ depth) : ts.mapM (read depth) = .ok files' := by
  induction h with
  | nil => rfl
  | cons path inner _ ih =>
    obtain ⟨here, rest⟩ := Nat.max_le.1 shallow
    rw [nesting_fileTree] at here
    obtain ⟨depth, rfl⟩ := Nat.exists_eq_add_of_le' (Nat.le_of_add_left_le here)
    have members := inner.mapM_readAt (Nat.le_of_add_le_add_right here) false
    exact mapM_cons_eq_ok_iff.2 ⟨_, _, read_fileTree path members, ih rest, rfl⟩

end SourceFile

namespace Snapshot

theorem Extended.decode_eq {s s' : Snapshot} {t : Tree}
    (h : Extended (Unfamiliar (·.fitsDouble = true)) s t s') {depth : Nat}
    (shallow : t.nesting ≤ depth) : decode depth t = .ok s' := by
  obtain @⟨facts, files, files', ts, inner⟩ := h
  have parts : max (Tree.itemsNesting ts + 1) facts.encode.nesting + 1 ≤ depth := by
    simpa [keyed, Tree.nesting, Tree.entriesNesting, Value.nesting_toTree] using shallow
  obtain ⟨depth, rfl⟩ := Nat.exists_eq_add_of_le' (Nat.le_of_add_left_le parts)
  obtain ⟨enough, enoughFacts⟩ := Nat.max_le.1 (Nat.le_of_add_le_add_right parts)
  have factsRead : FactTables.read depth facts.encode.toTree = .ok facts :=
    (reads_factTables facts depth).trans (if_pos enoughFacts)
  obtain ⟨depth, rfl⟩ := Nat.exists_eq_add_of_le' (Nat.le_of_add_left_le enough)
  have filesRead := inner.mapM_read (Nat.le_of_add_le_add_right enough)
  exact record_object_eq_ok_iff.2
    ⟨entries_keyed rfl (by simp) (list_eq_ok_iff.2 ⟨_, ts, rfl, rfl, filesRead⟩)
      (entries_keyed rfl (by simp) factsRead rfl), rfl⟩

/-- A snapshot that is accepted as it is written has no repeated id. -/
theorem repeated?_of_accepted {s s₀ : Snapshot} (accepted : read s.canonical = .ok s₀) :
    s.repeated? = none := by
  have written : Json.tokens s.canonical.toList = s.encode.tokens := Value.tokens_compact _
  rw [read_eq written] at accepted
  split at accepted
  · cases distinct : s.repeated? with
    | none => rfl
    | some repeated =>
      rw [distinct] at accepted
      cases accepted
  · cases accepted

/-- **New objects do no harm.** Objects of unfamiliar kinds, put into lists of members at any place,
are read as `other`, whatever ids they hold, and change nothing about the output. Their numbers must
be finite doubles to the reader; every number up to the fourth largest double is. -/
theorem read_extended :
    (∀ n : Numeral, n.AtMost (2 ^ 1024 - 2 ^ 973) → n.fitsDouble = true) ∧
    ∀ {s s₀ s' : Snapshot} {t : Tree} {text : String}, read s.canonical = .ok s₀ →
      Extended (Unfamiliar (·.fitsDouble = true)) s t s' → t.SpelledBy text →
      textNesting text ≤ 127 →
      read text = .ok s' ∧ generate s'.files s'.facts.facts = generate s.files s.facts.facts := by
  refine ⟨fun n => Numeral.fitsDouble_of_atMost, ?_⟩
  intro s s₀ s' t text accepted extended spelled shallow
  have unchecked : readUnchecked text = .ok s' := by
    rw [readUnchecked, document_of_spelled spelled]
    rw [spelled.textNesting_eq] at shallow
    exact extended.decode_eq shallow
  have distinct : s'.repeated? = none := by
    rw [extended.repeated?_eq, repeated?_of_accepted accepted]
  refine ⟨read_eq_ok_iff_readUnchecked.2 ⟨unchecked, distinct⟩, ?_⟩
  obtain ⟨facts, inner⟩ := extended
  exact inner.generate_eq _

/-! ## One new object in a file, and one in a type -/

/-- An object with its tag behind a list of ids. -/
def event : Value :=
  .object [("ids", .array [.integer 9, .integer 9]), ("kind", .string "event")]

/-- The written form of `door` with two events. -/
def crowdedDoor : Value :=
  .object
    [("trees", .array [.object
        [("path", .string "Door.cs"), ("members", .array
          [event, .object
            [("kind", .string "type"), ("name", .string "Door"), ("members", .array [event])]])]]),
      ("facts", door.facts.encode)]

theorem unfamiliar_event : Unfamiliar (·.fitsDouble = true) event.toTree := by
  refine unfamiliar_toTree rfl (by decide) ?_
  intro n hn
  replace hn : n ∈ [Numeral.ofInt 9, .ofInt 9] := hn
  obtain rfl : n = .ofInt 9 := by simpa using hn
  exact Numeral.fitsDouble_ofInt (by decide)

theorem read_extended_door :
    let crowded : Snapshot := ⟨[⟨"Door.cs", [.other, .typeDecl "Door" [.other]]⟩], door.facts⟩
    read door.canonical = .ok door ∧
      Extended (Unfamiliar (·.fitsDouble = true)) door crowdedDoor.toTree crowded ∧
      read crowdedDoor.compact = .ok crowded ∧
      generate crowded.files crowded.facts.facts = generate door.files door.facts.facts := by
  intro crowded
  have accepted : read door.canonical = .ok door :=
    (read_eq_ok_iff (Value.tokens_compact _)).2 (by decide)
  have extended : Extended (Unfamiliar (·.fitsDouble = true)) door crowdedDoor.toTree crowded :=
    .mk door.facts (.cons "Door.cs" (.insert unfamiliar_event
      (.within .inType "Door" (.insert unfamiliar_event .nil) .nil)) .nil)
  have shallow : textNesting crowdedDoor.compact ≤ 127 := by
    rw [Value.textNesting_compact]
    decide
  exact ⟨accepted, extended,
    read_extended.2 accepted extended (Value.spelledBy_compact _) shallow⟩

/-! ## The largest double -/

/-- An object with the largest double as an integer. -/
def largeEvent : Value :=
  .object [("kind", .string "event"), ("size", .integer Numeral.largestDouble)]

/-- The written form of an empty file with this object in it. -/
def largeFile : Value :=
  .object
    [("trees", .array [.object [("path", .string ""), ("members", .array [largeEvent])]]),
      ("facts", FactTables.empty.encode)]

/-- Not every number up to the largest double is in range to the reader: it rounds twice before it
multiplies, and finds the largest double itself infinite. -/
theorem not_read_extended_in_range :
    ¬∀ {s s₀ s' : Snapshot} {t : Tree} {text : String}, read s.canonical = .ok s₀ →
      Extended (Unfamiliar (·.AtMost Numeral.largestDouble)) s t s' → t.SpelledBy text →
      textNesting text ≤ 127 →
      read text = .ok s' ∧ generate s'.files s'.facts.facts = generate s.files s.facts.facts := by
  intro claim
  let empty : Snapshot := ⟨[⟨"", []⟩], .empty⟩
  have accepted : read empty.canonical = .ok empty :=
    (read_eq_ok_iff (Value.tokens_compact _)).2 (by decide)
  have unfamiliar : Unfamiliar (·.AtMost Numeral.largestDouble) largeEvent.toTree := by
    refine unfamiliar_toTree rfl (by decide) ?_
    intro n hn
    obtain rfl : n = .ofInt Numeral.largestDouble := List.mem_singleton.1 hn
    exact Numeral.atMost_ofInt.2 (Int.natAbs_natCast _).le
  have extended : Extended (Unfamiliar (·.AtMost Numeral.largestDouble)) empty largeFile.toTree
      ⟨[⟨"", [.other]⟩], .empty⟩ :=
    .mk .empty (.cons "" (.insert unfamiliar .nil) .nil)
  have spelled := Value.spelledBy_compact largeFile
  have shallow : textNesting largeFile.compact ≤ 127 := by
    rw [Value.textNesting_compact]
    decide
  have read := (claim accepted extended spelled shallow).1
  rw [read_eq_ok_iff_readUnchecked, readUnchecked, document_of_spelled spelled] at read
  have refused : (decode maxDepth largeFile.toTree).isOk = false := by decide +kernel
  rw [read.1] at refused
  cases refused

end Snapshot

end HierarchyAccessors
