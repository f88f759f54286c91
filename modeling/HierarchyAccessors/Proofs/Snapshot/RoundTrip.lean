import HierarchyAccessors.Proofs.Json.Reading
import HierarchyAccessors.Snapshot.Decode
import HierarchyAccessors.Snapshot.Encode

/-!
# Snapshots are read as they were written

For every type of the format its reader undoes its writer, wherever there is room for the written
form (`Reads`). Types and members hold types and members again, so theirs are inductions: an element
type lies one container further in, and a member of a member two.

**Theorem (`read_written`).** Either text of a snapshot is read as that snapshot exactly if the node
ids are pairwise distinct and the text nests no more than 127 containers in one another.
-/

namespace HierarchyAccessors

open Json (Fault Numeral Quoted Reader Tree Value)
open Json.Reader

/-! ## Ids -/

theorem reads_nodeId (id : NodeId) : Reads NodeId.read (.integer id.toNat) id := by
  intro depth
  have below := id.toNat_lt
  have upper : (id.toNat : Int) ≤ UInt32.size - 1 := by
    have : UInt32.size = 2 ^ 32 := rfl
    omega
  have reads := (reads_integer (Int.natCast_nonneg id.toNat) upper depth).map fun n =>
    UInt32.ofNat n.toNat
  rw [Int.toNat_natCast, UInt32.ofNat_toNat] at reads
  exact reads

theorem reads_symbolId (id : SymbolId) : Reads SymbolId.read (.integer id.toNat) id := by
  intro depth
  have below := id.toNat_lt
  have upper : (id.toNat : Int) ≤ UInt64.size - 1 := by
    have : UInt64.size = 2 ^ 64 := rfl
    omega
  have reads := (reads_integer (Int.natCast_nonneg id.toNat) upper depth).map fun n =>
    UInt64.ofNat n.toNat
  rw [Int.toNat_natCast, UInt64.ofNat_toNat] at reads
  exact reads

/-! ## Symbols and constants -/

theorem reads_namespaceName (name : Option String) :
    Reads (nullable string) (name.elim .null .string) name := by
  cases name with
  | none => exact reads_nullable_null string
  | some name => exact reads_nullable_string name

theorem reads_namedType (type : NamedType) : Reads NamedType.read type.encode type :=
  reads_parts (fun depth =>
    .cons rfl (by decide) (reads_symbolId type.id depth)
      (.cons rfl (by decide) (reads_string type.name depth)
        (.cons rfl (by decide) (reads_namespaceName type.namespaceName depth)
          (.cons rfl (by decide) (reads_list (fun name _ => reads_string name) depth)
            (.nil ..))))) rfl

namespace TypeRef

theorem kind_string (nested : Bool) (kind : String) :
    Kind.read nested (Value.string kind).toTree =
      match kind with
      | "named" => .ok .named
      | "array" => .ok .array
      | _ => .error .unfit := by
  rw [Value.toTree, Kind.read, Quoted.decode_closed_encode]
  rfl

theorem fits_encode : (type : TypeRef) → type.encode.Fits
  | named _ => ⟨trivial, trivial, trivial⟩
  | array element => ⟨trivial, fits_encode element, trivial⟩

theorem readsAt_named (element : Tree → Except Fault TypeRef) (nested : Bool) (display : String)
    (depth : Nat) : ReadsAt depth (readWith element nested) (named display).encode
      (named display) := by
  refine readsAt_tagged (kind_string nested "named") [("display", .string display)] (by simp)
    ⟨trivial, trivial⟩ fun enough => ?_
  have body : Reads (record [.of "display" string fun d (_ : Option String) => some d] none)
      (.object [("display", .string display)]) (some display) :=
    reads_record fun depth => .cons rfl (by decide) (reads_string display depth) (.nil ..)
  refine content_of_readsAt ((body depth).bind ?_) enough
  rfl

/-- The element type is one container further in, and is read with one container less to spare. -/
theorem readsAt_array {element : TypeRef} {depth : Nat} (nested : Bool)
    (inner : ReadsAt depth (readAt true) element.encode element) :
    ReadsAt (depth + 1) (readWith (readAt true depth) nested) (array element).encode
      (array element) := by
  refine readsAt_tagged (kind_string nested "array") [("element", element.encode)] (by simp)
    ⟨fits_encode element, trivial⟩ fun enough => ?_
  have body : ReadsAt (depth + 1) (record
      [.of "element" (fun _ => readAt true depth) fun e (_ : Option TypeRef) => some e] none)
      (.object [("element", element.encode)]) (some element) :=
    ReadsEntries.record (.cons rfl (by decide) inner (.nil ..))
  refine content_of_readsAt (body.bind ?_) enough
  rfl

theorem readsAt_encode (type : TypeRef) (nested : Bool) (depth : Nat) :
    ReadsAt depth (readAt nested) type.encode type := by
  induction type generalizing nested depth with
  | named display => cases depth <;> exact readsAt_named _ nested display _
  | array element ih =>
    cases depth with
    | zero => rfl
    | succ depth => exact readsAt_array nested (ih true depth)

end TypeRef

theorem reads_fieldBinding (symbol : FieldBinding) :
    Reads FieldBinding.read symbol.encode symbol :=
  reads_parts (fun depth =>
    .cons rfl (by decide) (reads_string symbol.name depth)
      (.cons rfl (by decide) (symbol.fieldType.readsAt_encode false depth)
        (.cons rfl (by decide) (reads_namedType symbol.containingType depth) (.nil ..)))) rfl

/-- A constant under its name. -/
theorem reads_namedConstant {name : String} {read : Reader Constant} {v : Value} {c : Constant}
    (named : Constant.readNamed name = .ok read) (reads : Reads read v c) :
    Reads Constant.read (.object [(name, v)]) c := by
  intro depth
  cases depth with
  | zero => rfl
  | succ depth =>
    have value := reads depth
    unfold ReadsAt at value
    rw [ReadsAt, Value.toTree, Value.toTreeEntries, Constant.read, Quoted.decode_closed_encode]
    simp only [bind, Except.bind, named, value, Value.toTreeEntries, Value.nesting,
      Value.entriesNesting, Nat.max_zero, room, Nat.add_le_add_iff_right]
    by_cases h : v.nesting ≤ depth
    · simp only [if_pos h, pure, Except.pure]
    · simp only [if_neg h]

theorem reads_constant : (c : Constant) → Reads Constant.read c.encode c
  | .integer n => by
    have lower : Int64.minValue.toInt ≤ n.toInt := n.minValue_le_toInt
    have upper : n.toInt ≤ Int64.maxValue.toInt := n.toInt_le
    have number : Reads (fun depth t =>
        (Reader.integer Int64.minValue.toInt Int64.maxValue.toInt depth t).map fun n =>
          Constant.integer (Int64.ofInt n)) (.integer n.toInt) (.integer n) := by
      intro depth
      have := (reads_integer lower upper depth).map fun n => Constant.integer (Int64.ofInt n)
      rwa [Int64.ofInt_toInt] at this
    exact reads_namedConstant rfl number
  | .boolean b => reads_namedConstant rfl fun depth => (reads_bool b depth).map Constant.boolean
  | .string s => reads_namedConstant rfl fun depth => (reads_string s depth).map Constant.string
  | .null => by
    intro depth
    rw [ReadsAt, Constant.encode, Value.toTree, Constant.read, Quoted.decode_closed_encode]
    exact (room_zero depth _).symm

/-! ## Declarations -/

theorem reads_expression (e : Expression) : Reads Expression.read e.encode e :=
  reads_parts (fun depth =>
    .cons rfl (by decide) (reads_nodeId e.id depth)
      (.cons rfl (by decide) (reads_string e.text depth) (.nil ..))) rfl

theorem reads_attribute (usage : Attribute) : Reads Attribute.read usage.encode usage :=
  reads_parts (fun depth =>
    .cons rfl (by decide) (reads_string usage.name depth)
      (.cons rfl (by decide) (reads_list (fun e _ => reads_expression e) depth) (.nil ..))) rfl

theorem reads_attributeList (usages : List Attribute) :
    Reads Attribute.readList (Attribute.encodeList usages) usages :=
  reads_record fun depth =>
    .cons rfl (by decide) (reads_list (fun usage _ => reads_attribute usage) depth) (.nil ..)

theorem reads_variable (v : Variable) : Reads Variable.read v.encode v :=
  reads_parts (fun depth =>
    .cons rfl (by decide) (reads_nodeId v.id depth)
      (.cons rfl (by decide) (reads_string v.name depth) (.nil ..))) rfl

/-! ## Integers of declarations -/

theorem fits_nodeId (id : NodeId) : (Value.integer id.toNat).Fits := by
  have below := id.toNat_lt
  show id.toNat < UInt64.size
  exact below.trans (by decide)

theorem fits_attributeList (usages : List Attribute) : (Attribute.encodeList usages).Fits :=
  ⟨Value.itemsFit_map fun _ _ =>
    ⟨trivial, Value.itemsFit_map fun e _ => ⟨fits_nodeId e.id, trivial, trivial⟩, trivial⟩, trivial⟩

/-- The content of a field declaration, after its kind. -/
def FieldDeclaration.content (field : FieldDeclaration) : List (String × Value) :=
  [("attribute_lists", .array (field.attributeLists.map Attribute.encodeList)),
    ("type_syntax", .string field.writtenType),
    ("variables", .array (field.declared.map (·.encode)))]

theorem FieldDeclaration.fits_content (field : FieldDeclaration) :
    Value.EntriesFit field.content :=
  ⟨Value.itemsFit_map fun usages _ => fits_attributeList usages, trivial,
    Value.itemsFit_map fun v _ => ⟨fits_nodeId v.id, trivial, trivial⟩, trivial⟩

theorem FieldDeclaration.reads_content (field : FieldDeclaration) :
    Reads FieldDeclaration.read (.object field.content) field :=
  reads_record fun depth =>
    .cons rfl (by decide) (reads_list (fun usages _ => reads_attributeList usages) depth)
      (.cons rfl (by decide) (reads_string field.writtenType depth)
        (.cons rfl (by decide) (reads_list (fun v _ => reads_variable v) depth) (.nil ..)))

/-! ## Members -/

namespace Member

theorem encodeList_eq_map (members : List Member) : encodeList members = members.map encode := by
  induction members with
  | nil => rfl
  | cons member members ih => rw [encodeList, List.map_cons, ih]

theorem kind_string (nested : Bool) (kind : String) :
    Kind.read nested (Value.string kind).toTree =
      match kind with
      | "namespace" => .ok .inNamespace
      | "type" => .ok .inType
      | "field" => .ok .inField
      | _ => .ok .other := by
  rw [Value.toTree, Kind.read, Quoted.decode_closed_encode]
  rfl

mutual

theorem fits_encode : (member : Member) → member.encode.Fits
  | namespaceDecl _ members => ⟨trivial, trivial, fits_encodeList members, trivial⟩
  | typeDecl _ members => ⟨trivial, trivial, fits_encodeList members, trivial⟩
  | fieldDecl declaration => ⟨trivial, declaration.fits_content⟩
  | other => ⟨trivial, trivial⟩

theorem fits_encodeList : (members : List Member) → Value.ItemsFit (encodeList members)
  | [] => trivial
  | member :: members => ⟨fits_encode member, fits_encodeList members⟩

end

/-- The content of a namespace or type, after its kind. -/
def body (name : String) (members : List Member) : List (String × Value) :=
  [("name", .string name), ("members", .array (encodeList members))]

theorem fits_body (name : String) (members : List Member) :
    Value.EntriesFit (body name members) :=
  ⟨trivial, fits_encodeList members, trivial⟩

/-- A namespace or type is two containers, one in the other, even if it has no members. -/
theorem two_le_nesting_body (name : String) (members : List Member) :
    2 ≤ (Value.object (body name members)).nesting := by
  simp only [body, Value.nesting, Value.entriesNesting]
  omega

/-- The members lie two containers further in, and are read with two containers less to spare. -/
theorem readsAt_body {depth : Nat} (name : String) {members : List Member}
    (inner : ∀ m ∈ members, ReadsAt depth (readAt true) m.encode m) :
    ReadsAt (depth + 2) (readBody (readAt true depth)) (.object (body name members))
      (name, members) := by
  have list : ReadsAt (depth + 1) (Reader.list fun _ => readAt true depth)
      (.array (encodeList members)) members := by
    rw [encodeList_eq_map]
    exact ReadsAt.list inner
  have parts : ReadsAt (depth + 2) (record
      [.of "name" string fun name (p : Parts) => { p with name },
        .of "members" (Reader.list fun _ => readAt true depth) fun members p =>
          { p with members }] {})
      (.object (body name members)) ⟨some name, members⟩ :=
    ReadsEntries.record (.cons rfl (by decide) (reads_string name (depth + 1))
      (.cons rfl (by decide) list (.nil ..)))
  exact parts.bind rfl

theorem readsAt_field (member : Tree → Except Fault Member) (nested : Bool)
    (declaration : FieldDeclaration) (depth : Nat) :
    ReadsAt depth (readWith member nested) (fieldDecl declaration).encode
      (fieldDecl declaration) := by
  refine readsAt_tagged (kind_string nested "field") declaration.content
    (by simp [FieldDeclaration.content])
    declaration.fits_content fun enough => ?_
  refine content_of_readsAt ((declaration.reads_content depth).bind ?_) enough
  rfl

theorem readsAt_other (member : Tree → Except Fault Member) (nested : Bool) (depth : Nat) :
    ReadsAt depth (readWith member nested) other.encode other :=
  readsAt_tagged (kind_string nested "other") [] (by simp) trivial fun _ => rfl

/-- The two sorts of members that have members of their own. -/
inductive Container : String → Kind → (String → List Member → Member) → Prop
  | inNamespace : Container "namespace" .inNamespace namespaceDecl
  | inType : Container "type" .inType typeDecl

/-- A namespace or type has its members read two containers further in; where there is no room for
those two it is refused whatever its members are. -/
theorem readsAt_container {kind : String} {k : Kind} {make : String → List Member → Member}
    (sort : Container kind k make) (nested : Bool) (name : String) {members : List Member}
    (inner : ∀ depth, ∀ m ∈ members, ReadsAt depth (readAt true) m.encode m) : (depth : Nat) →
    ReadsAt depth (readAt nested) (make name members).encode (make name members)
  | 0 => by cases sort <;> rfl
  | 1 => by
    have shallow : ¬(Value.object (body name members)).nesting ≤ 1 := fun enough =>
      absurd ((two_le_nesting_body name members).trans enough) (by decide)
    cases sort <;>
      exact readsAt_tagged (kind_string nested _) (body name members) (by simp [body])
        (fits_body name members) fun enough => absurd enough shallow
  | depth + 2 => by
    have content := readsAt_body name (inner depth)
    cases sort <;>
      refine readsAt_tagged (kind_string nested _) (body name members) (by simp [body])
        (fits_body name members) fun enough => content_of_readsAt (content.bind ?_) enough <;>
      rfl

mutual

/-- By induction on the member, at any depth and in either place. -/
theorem readsAt_encode (nested : Bool) (depth : Nat) : (member : Member) →
    ReadsAt depth (readAt nested) member.encode member
  | namespaceDecl name members =>
    readsAt_container .inNamespace nested name (fun depth => readsAt_members depth members) depth
  | typeDecl name members =>
    readsAt_container .inType nested name (fun depth => readsAt_members depth members) depth
  | fieldDecl declaration => by
    match depth with
    | 0 | 1 | depth + 2 => exact readsAt_field _ nested declaration _
  | other => by
    match depth with
    | 0 | 1 | depth + 2 => exact readsAt_other _ nested _

theorem readsAt_members (depth : Nat) : (members : List Member) →
    ∀ m ∈ members, ReadsAt depth (readAt true) m.encode m
  | [] => by simp
  | member :: members =>
    List.forall_mem_cons.2 ⟨readsAt_encode true depth member, readsAt_members depth members⟩

end

end Member

theorem reads_sourceFile (file : SourceFile) : Reads SourceFile.read file.encode file := by
  have members : Reads (Reader.list Member.read) (.array (Member.encodeList file.members))
      file.members := by
    rw [Member.encodeList_eq_map]
    exact reads_list fun m _ depth => m.readsAt_encode false depth
  exact reads_record fun depth =>
    .cons rfl (by decide) (reads_string file.path depth)
      (.cons rfl (by decide) (members depth) (.nil ..))

/-! ## Tables -/

namespace IdTable

variable {α : Type}

/-- An entry whose id is above all others goes to the end. -/
theorem insertEntry_of_lt {id : NodeId} (a : α) {entries : List (NodeId × α)}
    (h : ∀ e ∈ entries, e.1 < id) : insertEntry id a entries = entries ++ [(id, a)] := by
  induction entries with
  | nil => rfl
  | cons e entries ih =>
    obtain ⟨below, more⟩ := List.forall_mem_cons.1 h
    have asymm : ¬id < e.1 := UInt32.lt_asymm below
    have ne : id ≠ e.1 := fun same => UInt32.lt_irrefl _ (same ▸ below)
    rw [insertEntry, if_neg asymm, if_neg ne, ih more, List.cons_append]

theorem encodeChar_of_isDigit {c : Char} (h : c.isDigit = true) : Json.encodeChar c = [c] := by
  have ne (d : Char) (other : d.isDigit = false) : c ≠ d := by
    rintro rfl
    exact absurd h (by simp [other])
  have printable : ¬c.toNat < 0x20 := by
    simp only [Char.isDigit, Bool.and_eq_true, decide_eq_true_eq] at h
    have lower : (48 : UInt32) ≤ c.val := h.1
    have : 48 ≤ c.toNat := UInt32.le_iff_toNat_le.1 lower
    omega
  rw [Json.encodeChar, if_neg (ne _ rfl), if_neg (ne _ rfl), if_neg (ne _ rfl), if_neg (ne _ rfl),
    if_neg (ne _ rfl), if_neg (ne _ rfl), if_neg (ne _ rfl), if_neg printable]

theorem encodeRaw_of_isDigit {cs : List Char} (h : ∀ c ∈ cs, c.isDigit = true) :
    Json.encodeRaw cs = cs := by
  induction cs with
  | nil => rfl
  | cons c cs ih =>
    obtain ⟨digit, more⟩ := List.forall_mem_cons.1 h
    rw [Json.encodeRaw, List.flatMap_cons, encodeChar_of_isDigit digit]
    exact congrArg (c :: ·) (ih more)

/-- A decimal key is written without any escape. -/
theorem encodeRaw_toDigits (n : Nat) : Json.encodeRaw (Nat.toDigits 10 n) = Nat.toDigits 10 n :=
  encodeRaw_of_isDigit fun _ => Numeral.isDigit_of_mem_toDigits

/-- A decimal key spells its id. -/
theorem ofKey_toDigits (id : NodeId) :
    NodeId.ofKey (.closed (Json.encodeRaw (Nat.toDigits 10 id.toNat))) = .ok id := by
  have first : (Nat.toDigits 10 id.toNat ++ ['"']).head?.any
      (fun c => c = '-' || c.isDigit) = true := by
    cases hd : Nat.toDigits 10 id.toNat with
    | nil => exact absurd hd Nat.toDigits_ne_nil
    | cons d ds =>
      have digit : d.isDigit = true := Numeral.isDigit_of_mem_toDigits (hd ▸ List.mem_cons_self)
      simp [digit]
  have scan : Numeral.scan (Nat.toDigits 10 id.toNat ++ ['"']) = .ok (.ofInt id.toNat, ['"']) :=
    Numeral.scan_integerText id.toNat (Json.endsNumber_cons (by decide))
  have value : NodeId.read 0 (.number (.ofInt id.toNat)) = .ok id := by
    have := reads_nodeId id 0
    exact this
  simp only [NodeId.ofKey, encodeRaw_toDigits, first, if_true, scan, value, bind, Except.bind]
  rfl

/-- A table as it is written, from some entry on. -/
def writtenEntries (write : α → Value) (entries : List (NodeId × α)) : List (String × Value) :=
  entries.map fun (id, a) => (String.ofList (Nat.toDigits 10 id.toNat), write a)

/-- Entries in increasing order are added to the end of what has been read so far. -/
theorem readEntries_writtenEntries {depth : Nat} {value : Reader α} {write : α → Value}
    (reads : ∀ a, ReadsAt depth value (write a) a) {rest : List (NodeId × α)} {table : IdTable α}
    (sorted : (table.entries ++ rest).Pairwise (·.1 < ·.1)) :
    readEntries (value depth) (Value.toTreeEntries (writtenEntries write rest)) table =
      room (Value.entriesNesting (writtenEntries write rest)) depth
        ⟨table.entries ++ rest, sorted⟩ := by
  induction rest generalizing table with
  | nil =>
    simp only [writtenEntries, List.map_nil, List.append_nil]
    exact (room_zero depth table).symm
  | cons e rest ih =>
    obtain ⟨id, a⟩ := e
    have above : ∀ e ∈ table.entries, e.1 < id := fun e he =>
      (List.pairwise_append.1 sorted).2.2 e he _ List.mem_cons_self
    have inserted : (table.insert id a).entries = table.entries ++ [(id, a)] :=
      insertEntry_of_lt a above
    have sorted' : ((table.insert id a).entries ++ rest).Pairwise (·.1 < ·.1) := by
      rw [inserted, List.append_assoc]
      exact sorted
    have value := reads a
    unfold ReadsAt at value
    have more := ih sorted'
    simp only [inserted, List.append_assoc, List.singleton_append] at more
    simp only [writtenEntries, List.map_cons, Value.toTreeEntries, readEntries,
      String.toList_ofList, ofKey_toDigits, value, Value.entriesNesting]
    exact room_bind_room more

theorem encode_eq (write : α → Value) (table : IdTable α) :
    table.encode write = .object (writtenEntries write table.entries) := rfl

/-- A table that is written in increasing order of its ids is the table that is read. -/
theorem reads_table {value : Reader α} {write : α → Value} (reads : ∀ a, Reads value (write a) a)
    (table : IdTable α) : Reads (IdTable.read value) (table.encode write) table
  | 0 => rfl
  | depth + 1 => by
    have sorted : ((empty : IdTable α).entries ++ table.entries).Pairwise (·.1 < ·.1) :=
      table.sorted
    have entries := readEntries_writtenEntries (fun a => reads a depth) sorted
    rw [ReadsAt, encode_eq, Value.nesting, room_succ, Value.toTree, IdTable.read, entries]
    exact room_bind rfl

end IdTable

/-! ## Facts -/

theorem reads_factTables (tables : FactTables) : Reads FactTables.read tables.encode tables :=
  reads_record fun depth =>
    .cons rfl (by decide) (tables.fields.reads_table reads_fieldBinding depth)
      (.cons rfl (by decide) (tables.constants.reads_table reads_constant depth) (.nil ..))

/-! ## Snapshots -/

namespace Snapshot

open Json (textNesting)

theorem reads_snapshot (s : Snapshot) : Reads decode s.encode s :=
  reads_record fun depth =>
    .cons rfl (by decide) (reads_list (fun file _ => reads_sourceFile file) depth)
      (.cons rfl (by decide) (reads_factTables s.facts depth) (.nil ..))

/-! ## Node ids -/

theorem firstRepeat?_eq_none_iff {seen : List NodeId} {ids : List (NodeId × String)} :
    firstRepeat? seen ids = none ↔
      (ids.map (·.1)).Nodup ∧ ∀ id ∈ ids.map (·.1), id ∉ seen := by
  induction ids generalizing seen with
  | nil => simp [firstRepeat?]
  | cons e ids ih =>
    obtain ⟨id, path⟩ := e
    rw [firstRepeat?]
    by_cases h : id ∈ seen
    · simp [h]
    · rw [if_neg h, ih, List.map_cons, List.nodup_cons]
      simp only [List.mem_cons, not_or]
      grind

theorem repeated?_eq_none_iff (s : Snapshot) :
    s.repeated? = none ↔ (s.nodeIds.map (·.1)).Nodup := by
  rw [repeated?, firstRepeat?_eq_none_iff]
  simp

/-- Any text with the tokens of the written form is read alike. -/
theorem read_eq {s : Snapshot} {text : String}
    (written : Json.tokens text.toList = s.encode.tokens) :
    read text =
      if s.encode.nesting ≤ 127 then
        match s.repeated? with
        | some (id, path) => .error (.duplicateNode id path)
        | none => .ok s
      else .error (.text .malformed) := by
  have unchecked : readUnchecked text = room s.encode.nesting 127 s :=
    document_eq (reads_snapshot s) written
  rw [read, unchecked, room]
  by_cases h : s.encode.nesting ≤ 127
  · rw [if_pos h, if_pos h]
    rfl
  · rw [if_neg h, if_neg h]
    rfl

theorem read_eq_ok_iff {s : Snapshot} {text : String}
    (written : Json.tokens text.toList = s.encode.tokens) :
    read text = .ok s ↔ (s.nodeIds.map (·.1)).Nodup ∧ s.encode.nesting ≤ 127 := by
  rw [read_eq written, ← repeated?_eq_none_iff]
  by_cases h : s.encode.nesting ≤ 127
  · rw [if_pos h]
    cases s.repeated? with
    | none => simp [h]
    | some repeated => simp
  · rw [if_neg h]
    simp [h]

theorem read_eq_malformed {s : Snapshot} {text : String}
    (written : Json.tokens text.toList = s.encode.tokens) (deep : 127 < s.encode.nesting) :
    read text = .error (.text .malformed) := by
  rw [read_eq written, if_neg (Nat.not_le.2 deep)]

/-- **A snapshot is read as it was written** exactly if its node ids are pairwise distinct and its
text nests no more than 127 containers in one another. A text that nests deeper is malformed. -/
theorem read_written (s : Snapshot) :
    (read s.pretty = .ok s ↔
      (s.nodeIds.map (·.1)).Nodup ∧ textNesting s.pretty ≤ 127) ∧
    (read s.canonical = .ok s ↔
      (s.nodeIds.map (·.1)).Nodup ∧ textNesting s.canonical ≤ 127) ∧
    (127 < textNesting s.pretty → read s.pretty = .error (.text .malformed)) ∧
    (127 < textNesting s.canonical → read s.canonical = .error (.text .malformed)) := by
  have pretty : Json.tokens s.pretty.toList = s.encode.tokens := Value.tokens_pretty _
  have canonical : Json.tokens s.canonical.toList = s.encode.tokens := Value.tokens_compact _
  have prettyNesting : textNesting s.pretty = s.encode.nesting := Value.textNesting_pretty _
  have canonicalNesting : textNesting s.canonical = s.encode.nesting :=
    Value.textNesting_compact _
  rw [prettyNesting, canonicalNesting]
  exact ⟨read_eq_ok_iff pretty, read_eq_ok_iff canonical, read_eq_malformed pretty,
    read_eq_malformed canonical⟩

end Snapshot

end HierarchyAccessors
