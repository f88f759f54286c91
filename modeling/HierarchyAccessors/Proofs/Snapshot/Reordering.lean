import HierarchyAccessors.Proofs.Json.Steady
import HierarchyAccessors.Proofs.Planning
import HierarchyAccessors.Proofs.Snapshot.RoundTrip

/-!
# Snapshots do not depend on how they are written down

Every reader of the format is steady: it gives the same value for every order of entries. For most
that is so because they are put together from steady parts. Tables are read entry by entry, and
there two entries can be interchanged because different keys spell different ids
(`NodeId.ofKey_eq_ok`) and a table does not depend on the order in which different ids come
(`IdTable.insert_comm`).

**Theorem (`read_rewritten`).** A text that is read as a snapshot may be rewritten, with other white
space and other orders of entries, and is read as the same snapshot.
-/

namespace HierarchyAccessors

open Json (EntryReordered Fault Interchanged Numeral Quoted Reader Reordered Rewritten Steady Tree
  Value bind_eq_ok_iff map_eq_ok_iff)
open Json.Reader

/-! ## Ids and tables -/

theorem steady_nodeId (depth : Nat) : Steady (NodeId.read depth) :=
  (steady_integer _ _ depth).map _

theorem steady_symbolId (depth : Nat) : Steady (SymbolId.read depth) :=
  (steady_integer _ _ depth).map _

namespace NodeId

/-- A number is read as an id if it denotes it. -/
theorem read_number_eq_ok {n : Numeral} {id : NodeId} (h : read 0 (.number n) = .ok id) :
    ∃ i : Int, n.toInt? = some i ∧ 0 ≤ i ∧ i.toNat = id.toNat := by
  obtain ⟨i, value, rfl⟩ := map_eq_ok_iff.1 h
  simp only [Reader.integer] at value
  split at value
  · next j denotes =>
    split at value
    · next range =>
      cases value
      refine ⟨i, denotes, range.1, ?_⟩
      have below : i.toNat < UInt32.size := by omega
      rw [UInt32.toNat_ofNat_of_lt' below]
    · cases value
  · cases value

/-- What is cut out of a key as an id, up to a quote, is its decimal digits. -/
theorem eq_toDigits_of_scan {text rest : List Char} {n : Numeral} {id : NodeId}
    (cut : Numeral.scan text = .ok (n, rest))
    (h : (do
      let id ← read 0 (.number n)
      if rest = ['"'] then return id else throw .malformed) = Except.ok id) :
    text = Nat.toDigits 10 id.toNat ++ ['"'] := by
  obtain ⟨id', value, h⟩ := bind_eq_ok_iff.1 h
  split at h
  · next last =>
    cases h
    obtain ⟨text, rfl, spelled, -⟩ := Numeral.spelled_of_scan cut
    obtain ⟨i, denotes, nonneg, eq⟩ := read_number_eq_ok value
    rw [last, spelled.eq_toDigits denotes nonneg, eq]
  · cases h

/-- A key spells an id only by its decimal digits. -/
theorem ofKey_eq_ok {key : Quoted} {id : NodeId} (h : ofKey key = .ok id) :
    key = .closed (Nat.toDigits 10 id.toNat) ∨
      key = .unclosed (Nat.toDigits 10 id.toNat ++ ['"']) := by
  cases key with
  | closed raw =>
    simp only [ofKey] at h
    split at h
    · cases cut : Numeral.scan (raw ++ ['"']) with
      | error =>
        rw [cut] at h
        cases h
      | ok p =>
        rw [cut] at h
        exact .inl (congrArg _ (List.append_cancel_right (eq_toDigits_of_scan cut h)))
    · cases h
  | unclosed raw =>
    simp only [ofKey] at h
    split at h
    · cases cut : Numeral.scan raw with
      | error =>
        rw [cut] at h
        cases h
      | ok p =>
        rw [cut] at h
        exact .inr (congrArg _ (eq_toDigits_of_scan cut h))
    · cases h

theorem ofKey_injective {raw raw' : List Char} {id : NodeId} (h : ofKey (.closed raw) = .ok id)
    (h' : ofKey (.closed raw') = .ok id) : raw = raw' := by
  rcases ofKey_eq_ok h with eq | eq <;> rcases ofKey_eq_ok h' with eq' | eq' <;>
    cases eq <;> cases eq'
  rfl

/-- No honest key spells an id and lacks its quote. -/
theorem whole_of_ofKey {key : Quoted} (honest : key.Honest) {id : NodeId}
    (h : ofKey key = .ok id) : key.skipFault? = none := by
  have digits := IdTable.encodeRaw_toDigits id.toNat
  rcases ofKey_eq_ok h with rfl | rfl
  · have := Value.skipFault?_encodeRaw (String.ofList (Nat.toDigits 10 id.toNat))
    rwa [String.toList_ofList, digits] at this
  · have cut := Quoted.scan_encodeRaw_append (Nat.toDigits 10 id.toNat) []
    rw [digits, Quoted.scan] at cut
    have none : Json.splitAtQuote (Nat.toDigits 10 id.toNat ++ ['"']) = none := honest
    rw [none] at cut
    cases cut

end NodeId

namespace IdTable

variable {α : Type}

theorem insertEntry_comm {id id' : NodeId} (ne : id ≠ id') (a b : α)
    (entries : List (NodeId × α)) :
    insertEntry id a (insertEntry id' b entries) =
      insertEntry id' b (insertEntry id a entries) := by
  have ne' : id.toNat ≠ id'.toNat := fun same => ne (UInt32.toNat_inj.1 same)
  induction entries with
  | nil =>
    simp only [insertEntry, UInt32.lt_iff_toNat_lt, ← UInt32.toNat_inj]
    grind
  | cons e entries ih =>
    obtain ⟨k, c⟩ := e
    simp only [insertEntry, UInt32.lt_iff_toNat_lt, ← UInt32.toNat_inj]
    grind [insertEntry, UInt32.lt_iff_toNat_lt, ← UInt32.toNat_inj]

/-- Values under different ids may be put in in either order. -/
theorem insert_comm {id id' : NodeId} (ne : id ≠ id') (a b : α) (table : IdTable α) :
    (table.insert id' b).insert id a = (table.insert id a).insert id' b := by
  have entries := insertEntry_comm ne a b table.entries
  unfold insert
  congr 1

theorem readEntries_cons_eq_ok_iff {value : Tree → Except Fault α} {key : Quoted} {t : Tree}
    {es : List (Quoted × Tree)} {table table' : IdTable α} :
    readEntries value ((key, t) :: es) table = .ok table' ↔
      ∃ id a, NodeId.ofKey key = .ok id ∧ value t = .ok a ∧
        readEntries value es (table.insert id a) = .ok table' := by
  rw [readEntries, bind_eq_ok_iff]
  simp only [bind_eq_ok_iff]
  grind

variable {value : Tree → Except Fault α}

theorem readEntries_reordered (steady : Steady value) {es es' : List (Quoted × Tree)}
    (each : List.Forall₂ EntryReordered es es') {table table' : IdTable α}
    (h : readEntries value es table = .ok table') : readEntries value es' table = .ok table' := by
  induction each generalizing table with
  | nil => exact h
  | cons first _ ih =>
    obtain ⟨raw, same⟩ := first
    obtain ⟨id, a, spells, read, more⟩ := readEntries_cons_eq_ok_iff.1 h
    exact readEntries_cons_eq_ok_iff.2 ⟨id, a, spells, steady.reordered read same, ih more⟩

/-- Different keys spell different ids, so it is no matter which of two comes first. -/
theorem readEntries_interchanged {es es' : List (Quoted × Tree)} (h : Interchanged es es')
    (closed : ∀ e ∈ es, ∃ raw, e.1 = .closed raw) {table table' : IdTable α}
    (read : readEntries value es table = .ok table') :
    readEntries value es' table = .ok table' := by
  induction h generalizing table with
  | refl => exact read
  | cons e _ ih =>
    obtain ⟨id, a, spells, value, more⟩ := readEntries_cons_eq_ok_iff.1 read
    have rest := ih (fun e he => closed e (List.mem_cons_of_mem _ he)) more
    exact readEntries_cons_eq_ok_iff.2 ⟨id, a, spells, value, rest⟩
  | @swap d e ne es =>
    obtain ⟨id, a, spells, value, read⟩ := readEntries_cons_eq_ok_iff.1 read
    obtain ⟨id', a', spells', value', read⟩ := readEntries_cons_eq_ok_iff.1 read
    have differ : id' ≠ id := by
      rintro rfl
      obtain ⟨raw, eq⟩ := closed d (by simp)
      obtain ⟨raw', eq'⟩ := closed e (by simp)
      rw [eq] at spells ne
      rw [eq'] at spells' ne
      exact ne (congrArg _ (NodeId.ofKey_injective spells spells'))
    rw [insert_comm differ] at read
    exact readEntries_cons_eq_ok_iff.2 ⟨id', a', spells', value',
      readEntries_cons_eq_ok_iff.2 ⟨id, a, spells, value, read⟩⟩
  | trans first _ ih₁ ih₂ =>
    exact ih₂ (fun e he => closed e (first.perm.mem_iff.2 he)) (ih₁ closed read)

theorem whole_of_readEntries (steady : Steady value) {es : List (Quoted × Tree)}
    {table table' : IdTable α} (honest : ∀ e ∈ es, e.1.Honest ∧ e.2.Honest)
    (h : readEntries value es table = .ok table') :
    ∀ e ∈ es, e.1.skipFault? = none ∧ e.2.Whole := by
  induction es generalizing table with
  | nil => simp
  | cons e es ih =>
    obtain ⟨⟨honestKey, honestValue⟩, more⟩ := List.forall_mem_cons.1 honest
    obtain ⟨id, a, spells, read, rest⟩ := readEntries_cons_eq_ok_iff.1 h
    exact List.forall_mem_cons.2
      ⟨⟨NodeId.whole_of_ofKey honestKey spells, steady.whole honestValue read⟩, ih more rest⟩

theorem read_eq_ok {value : Reader α} {depth : Nat} {t : Tree} {table : IdTable α}
    (h : IdTable.read value depth t = .ok table) :
    ∃ d es, depth = d + 1 ∧ t = .object es .closed ∧
      readEntries (value d) es .empty = .ok table := by
  cases t with
  | object es ending =>
    cases depth with
    | zero => cases h
    | succ depth =>
      obtain ⟨table', entries, h⟩ := bind_eq_ok_iff.1 h
      obtain ⟨u, ends, h⟩ := bind_eq_ok_iff.1 h
      cases h
      cases Json.Ending.check_eq_ok_iff.1 ends
      exact ⟨depth, es, rfl, rfl, entries⟩
  | _ => cases h

theorem steady_read {value : Reader α} (steady : ∀ depth, Steady (value depth)) (depth : Nat) :
    Steady (IdTable.read value depth) where
  whole honest h := by
    obtain ⟨d, es, rfl, rfl, read⟩ := read_eq_ok h
    exact Tree.whole_object_iff.2
      ⟨whole_of_readEntries (steady d) (fun e he => honest.entry he) read, rfl⟩
  reordered {t t' table} h same := by
    obtain ⟨d, es, rfl, rfl, read⟩ := read_eq_ok h
    cases same with
    | object each shuffled =>
      have closed := Reordered.exists_closed_key each
      have values := readEntries_reordered (steady d) each read
      have order := readEntries_interchanged shuffled.interchanged closed values
      exact bind_eq_ok_iff.2 ⟨table, order, rfl⟩

end IdTable

/-! ## Symbols and constants -/

theorem steady_namedType (depth : Nat) : Steady (NamedType.read depth) :=
  (steady_record (.cons (Field.steady_of steady_symbolId) (by simp [Field.commutes_of])
    (.cons (Field.steady_of steady_string) (by simp [Field.commutes_of])
      (.cons (Field.steady_of (steady_nullable steady_string)) (by simp [Field.commutes_of])
        (.cons (Field.steady_of (steady_list steady_string)) (by simp) .nil)))) _ depth).bind _

namespace TypeRef

theorem steady_kind (nested : Bool) : Steady (Kind.read nested) := by
  refine steady_scalar fun {t kind} h => ?_
  cases t with
  | string q =>
    obtain ⟨s, spells, -⟩ := bind_eq_ok_iff.1 h
    exact .inl ⟨q, s, rfl, spells⟩
  | number n => exact .inr ⟨n, rfl⟩
  | _ => cases h

theorem steady_readWith {element : Tree → Except Fault TypeRef} (steady : Steady element)
    (nested : Bool) (depth : Nat) : Steady (readWith element nested depth) := by
  refine steady_tagged (steady_kind nested) (fun kind => ?_) depth
  cases kind with
  | named =>
    exact ((steady_record (.cons (Field.steady_of steady_string) (by simp) .nil) _ depth).bind
      _).content.reordered
  | array =>
    exact ((steady_record (.cons (Field.steady_of fun _ => steady) (by simp) .nil) _ depth).bind
      _).content.reordered

theorem steady_readAt (nested : Bool) (depth : Nat) : Steady (readAt nested depth) := by
  induction depth generalizing nested with
  | zero => exact steady_readWith (Json.steady_refusal _) nested 0
  | succ depth ih => exact steady_readWith (ih true) nested (depth + 1)

end TypeRef

theorem steady_fieldBinding (depth : Nat) : Steady (FieldBinding.read depth) :=
  (steady_record (.cons (Field.steady_of steady_string) (by simp [Field.commutes_of])
    (.cons (Field.steady_of (TypeRef.steady_readAt false)) (by simp [Field.commutes_of])
      (.cons (Field.steady_of steady_namedType) (by simp) .nil))) _ depth).bind _

namespace Constant

theorem steady_readNamed {name : String} {value : Reader Constant}
    (named : readNamed name = .ok value) (depth : Nat) : Steady (value depth) := by
  unfold readNamed at named
  split at named
  · cases named
    exact (steady_integer _ _ depth).map _
  · cases named
    exact (steady_bool depth).map _
  · cases named
    exact (steady_string depth).map _
  · cases named
    exact (steady_null depth).map _
  · cases named

/-- A constant is a bare name, or an object with one entry. -/
theorem read_eq_ok {depth : Nat} {t : Tree} {c : Constant} (h : read depth t = .ok c) :
    (∃ q s, t = .string q ∧ q.decode = .ok s) ∨
      ∃ d key name u value, depth = d + 1 ∧ t = .object [(key, u)] .closed ∧
        key.decode = .ok name ∧ readNamed name = .ok value ∧ value d u = .ok c := by
  unfold read at h
  split at h
  · obtain ⟨name, spells, -⟩ := bind_eq_ok_iff.1 h
    exact .inl ⟨_, name, rfl, spells⟩
  · cases h
  · cases h
  · cases h
  · next key u rest ending d =>
    obtain ⟨name, spells, h⟩ := bind_eq_ok_iff.1 h
    obtain ⟨value, named, h⟩ := bind_eq_ok_iff.1 h
    obtain ⟨c', read, h⟩ := bind_eq_ok_iff.1 h
    split at h
    · cases h
      exact .inr ⟨d, key, name, u, value, rfl, rfl, spells, named, read⟩
    · cases h
    · cases h
  · cases h

theorem steady_read (depth : Nat) : Steady (read depth) where
  whole honest h := by
    rcases read_eq_ok h with
      ⟨q, s, rfl, spells⟩ | ⟨d, key, name, u, value, rfl, rfl, spells, named, read⟩
    · exact Quoted.skipFault?_of_decode spells
    · have inner := (steady_readNamed named d).whole (honest.entry List.mem_cons_self).2 read
      refine Tree.whole_object_iff.2 ⟨?_, rfl⟩
      simp [Quoted.skipFault?_of_decode spells, inner]
  reordered {t t' c} h same := by
    rcases read_eq_ok h with
      ⟨q, s, rfl, spells⟩ | ⟨d, key, name, u, value, rfl, rfl, spells, named, read⟩
    · cases same
      exact h
    · cases same with
      | object each shuffled =>
        obtain ⟨e', _, ⟨raw, same⟩, ⟨⟩, rfl⟩ := List.forall₂_cons_left_iff.1 each
        rw [shuffled.eq_singleton]
        have value' := (steady_readNamed named d).reordered read same
        simp only [Constant.read, spells, named, value', bind, Except.bind]
        rfl

end Constant

/-! ## Declarations -/

theorem steady_expression (depth : Nat) : Steady (Expression.read depth) :=
  (steady_record (.cons (Field.steady_of steady_nodeId) (by simp [Field.commutes_of])
    (.cons (Field.steady_of steady_string) (by simp) .nil)) _ depth).bind _

theorem steady_attribute (depth : Nat) : Steady (Attribute.read depth) :=
  (steady_record (.cons (Field.steady_of steady_string) (by simp [Field.commutes_of])
    (.cons (Field.steady_of (steady_list steady_expression)) (by simp) .nil)) _ depth).bind _

theorem steady_attributeList (depth : Nat) : Steady (Attribute.readList depth) :=
  steady_record (.cons (Field.steady_of (steady_list steady_attribute)) (by simp) .nil) _ depth

theorem steady_variable (depth : Nat) : Steady (Variable.read depth) :=
  (steady_record (.cons (Field.steady_of steady_nodeId) (by simp [Field.commutes_of])
    (.cons (Field.steady_of steady_string) (by simp) .nil)) _ depth).bind _

theorem steady_fieldDeclaration (depth : Nat) : Steady (FieldDeclaration.read depth) :=
  steady_record
    (.cons (Field.steady_of (steady_list steady_attributeList)) (by simp [Field.commutes_of])
      (.cons (Field.steady_of steady_string) (by simp [Field.commutes_of])
        (.cons (Field.steady_of (steady_list steady_variable)) (by simp) .nil))) _ depth

namespace Member

theorem steady_kind (nested : Bool) : Steady (Kind.read nested) := by
  refine steady_scalar fun {t kind} h => ?_
  cases t with
  | string q =>
    obtain ⟨s, spells, -⟩ := bind_eq_ok_iff.1 h
    exact .inl ⟨q, s, rfl, spells⟩
  | number n => exact .inr ⟨n, rfl⟩
  | _ => cases h

theorem steady_readBody {member : Tree → Except Fault Member} (steady : Steady member)
    (depth : Nat) : Steady (readBody member depth) :=
  (steady_record (.cons (Field.steady_of steady_string) (by simp [Field.commutes_of])
    (.cons (Field.steady_of (steady_list fun _ => steady)) (by simp) .nil)) _ depth).bind _

theorem steady_readWith {member : Tree → Except Fault Member} (steady : Steady member)
    (nested : Bool) (depth : Nat) : Steady (readWith member nested depth) := by
  refine steady_tagged (steady_kind nested) (fun kind => ?_) depth
  cases kind with
  | inNamespace => exact ((steady_readBody steady depth).bind _).content.reordered
  | inType => exact ((steady_readBody steady depth).bind _).content.reordered
  | inField => exact ((steady_fieldDeclaration depth).bind _).content.reordered
  | other =>
    intro t t' m h same
    cases same with
    | null | bool | number | string | object => exact h
    | array each =>
      cases each with
      | nil => exact h
      | cons => cases h

theorem steady_readAt (nested : Bool) (depth : Nat) : Steady (readAt nested depth) := by
  induction depth using Nat.twoStepInduction generalizing nested with
  | zero => exact steady_readWith (Json.steady_refusal _) nested 0
  | one => exact steady_readWith (Json.steady_refusal _) nested 1
  | more depth ih _ => exact steady_readWith (ih true) nested (depth + 2)

end Member

theorem steady_sourceFile (depth : Nat) : Steady (SourceFile.read depth) :=
  steady_record (.cons (Field.steady_of steady_string) (by simp [Field.commutes_of])
    (.cons (Field.steady_of (steady_list (Member.steady_readAt false))) (by simp) .nil)) _ depth

/-! ## Facts and snapshots -/

theorem steady_factTables (depth : Nat) : Steady (FactTables.read depth) :=
  steady_record
    (.cons (Field.steady_of (IdTable.steady_read steady_fieldBinding)) (by simp [Field.commutes_of])
      (.cons (Field.steady_of (IdTable.steady_read Constant.steady_read)) (by simp) .nil)) _ depth

namespace Snapshot

theorem steady_decode (depth : Nat) : Steady (decode depth) :=
  steady_record
    (.cons (Field.steady_of (steady_list steady_sourceFile)) (by simp [Field.commutes_of])
      (.cons (Field.steady_of steady_factTables) (by simp) .nil)) _ depth

/-- A snapshot is what its text says, if no node id occurs twice in it. -/
theorem read_eq_ok_iff_readUnchecked {text : String} {s : Snapshot} :
    read text = .ok s ↔ readUnchecked text = .ok s ∧ s.repeated? = none := by
  rw [read]
  cases readUnchecked text with
  | error => simp [Except.mapError, bind, Except.bind]
  | ok s' =>
    simp only [Except.mapError, bind, Except.bind]
    cases h : s'.repeated? <;> simp [pure, Except.pure] <;> grind

theorem readUnchecked_rewritten {text text' : String} {s : Snapshot}
    (accepted : readUnchecked text = .ok s) (rewritten : Rewritten text text') :
    readUnchecked text' = .ok s :=
  document_rewritten (steady_decode maxDepth) accepted rewritten

theorem sorted_writtenIds {α : Type} (table : IdTable α) :
    (table.entries.map (·.1.toNat)).Pairwise (· < ·) :=
  List.pairwise_map.2 (table.sorted.imp fun h => UInt32.lt_iff_toNat_lt.1 h)

/-- **A snapshot does not depend on how it is written down.** A text that is read as a snapshot is
one of the grammar, and every other text of it, with other white space and with the entries of
objects in another order, is read as the same snapshot, to the same canonical text, digests and
output. That text lists the facts in numeric order of the ids. -/
theorem read_rewritten {text : String} {s : Snapshot} (accepted : read text = .ok s) :
    (∃ t : Tree, t.SpelledBy text) ∧
    (∀ text', Rewritten text text' →
      read text' = .ok s ∧
      (read text').map canonical = (read text).map canonical ∧
      (read text').map fingerprint = (read text).map fingerprint ∧
      (read text').map cacheKey = (read text).map cacheKey ∧
      (read text').map output = (read text).map output) ∧
    (s.facts.fields.entries.map (·.1.toNat)).Pairwise (· < ·) ∧
    (s.facts.constants.entries.map (·.1.toNat)).Pairwise (· < ·) ∧
    s.canonical = (Value.object
      [("trees", .array (s.files.map SourceFile.encode)),
        ("facts", .object
          [("fields", .object (IdTable.writtenEntries FieldBinding.encode s.facts.fields.entries)),
            ("constants", .object
              (IdTable.writtenEntries Constant.encode s.facts.constants.entries))])]).compact := by
  obtain ⟨unchecked, distinct⟩ := read_eq_ok_iff_readUnchecked.1 accepted
  refine ⟨exists_spelled_of_accepted (steady_decode maxDepth) unchecked, fun text' rewritten => ?_,
    sorted_writtenIds _, sorted_writtenIds _, rfl⟩
  have again := read_eq_ok_iff_readUnchecked.2
    ⟨readUnchecked_rewritten unchecked rewritten, distinct⟩
  simp only [again, accepted, and_self]

/-- One type, and two facts. -/
def door : Snapshot where
  files := [⟨"Door.cs", [.typeDecl "Door" []]⟩]
  facts := ⟨.empty, .ofList [(10, .null), (9, .boolean true)]⟩

/-- The same with the entries of its objects in another order. -/
def turnedDoor : Value :=
  .object
    [("facts", .object
        [("constants", .object [("10", .string "null"), ("9", .object [("boolean", .bool true)])]),
          ("fields", .object [])]),
      ("trees", .array [.object
        [("members", .array
            [.object [("name", .string "Door"), ("members", .array []), ("kind", .string "type")]]),
          ("path", .string "Door.cs")]])]

theorem rewritten_door : Rewritten door.pretty turnedDoor.compact := by
  have same (v : Value) : Reordered v.toTree v.toTree := .refl _ v.whole_toTree
  have pair {k l : List Char} {t t' u u' : Tree} (ne : k ≠ l) (first : Reordered t t')
      (second : Reordered u u') :
      Reordered (.object [(.closed k, t), (.closed l, u)] .closed)
        (.object [(.closed l, u'), (.closed k, t')] .closed) :=
    .object (.cons (.value _ first) (.cons (.value _ second) .nil))
      (Interchanged.swap (by simpa using ne) []).shuffled
  have member : Reordered (Member.typeDecl "Door" []).encode.toTree
      (Value.object [("name", .string "Door"), ("members", .array []),
        ("kind", .string "type")]).toTree :=
    .object (.cons (.value _ (same (.string "type"))) (.cons (.value _ (same (.string "Door")))
        (.cons (.value _ (same (.array []))) .nil)))
      (Interchanged.trans (.swap (by decide) _) (.cons _ (.swap (by decide) _))).shuffled
  have file := pair (k := "path".toList) (l := "members".toList) (by decide)
    (same (.string "Door.cs")) (.array (.cons member .nil))
  have constants := pair (k := ['9']) (l := ['1', '0']) (by decide)
    (same (.object [("boolean", .bool true)])) (same (.string "null"))
  have facts := pair (k := "fields".toList) (l := "constants".toList) (by decide)
    (same (.object [])) constants
  exact ⟨door.encode.toTree, turnedDoor.toTree, Value.spelledBy_pretty _,
    pair (by decide) (.array (.cons file .nil)) facts, Value.spelledBy_compact _⟩

theorem read_rewritten_door :
    read door.pretty = .ok door ∧ Rewritten door.pretty turnedDoor.compact ∧
      read turnedDoor.compact = .ok door := by
  have accepted : read door.pretty = .ok door :=
    (read_eq_ok_iff (Value.tokens_pretty _)).2 (by decide)
  exact ⟨accepted, rewritten_door, ((read_rewritten accepted).2.1 _ rewritten_door).1⟩

end Snapshot

end HierarchyAccessors
