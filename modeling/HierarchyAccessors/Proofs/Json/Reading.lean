import HierarchyAccessors.Json.Reader
import HierarchyAccessors.Proofs.Json.Magnitude
import HierarchyAccessors.Proofs.Json.WrittenTree

/-!
# Reading what has been written

A reader undoes a writer when it gives the value back at every depth that has room for the written
form, and finds the text malformed at every other (`ReadsAt`). The readers of this library are put
together from few parts, and for each part there is one lemma here: scalars, lists, records
(`ReadsAt.record`) and tagged records (`tagged_object`), up to a whole text (`document_eq`).

Room is all that can be missing. A tagged record is read as a whole before its content is looked
at, which fails for want of room alone when every integer fits into 64 bits (`Value.Fits`); what is
read afterwards has room already.
-/

namespace HierarchyAccessors.Json

/-! ## Values read as a whole -/

namespace Value

mutual

/-- Every integer of the value has at most 64 bits. -/
def Fits : Value → Prop
  | integer n => n.natAbs < UInt64.size
  | array items => ItemsFit items
  | object entries => EntriesFit entries
  | null | bool _ | string _ => True

def ItemsFit : List Value → Prop
  | [] => True
  | v :: vs => v.Fits ∧ ItemsFit vs

def EntriesFit : List (String × Value) → Prop
  | [] => True
  | (_, v) :: entries => v.Fits ∧ EntriesFit entries

end

theorem itemsFit_map {α : Type} {write : α → Value} {as : List α} (h : ∀ a ∈ as, (write a).Fits) :
    ItemsFit (as.map write) := by
  induction as with
  | nil => trivial
  | cons a as ih =>
    obtain ⟨first, more⟩ := List.forall_mem_cons.1 h
    exact ⟨first, ih more⟩

theorem strictFault?_encodeRaw (s : String) :
    (Quoted.closed (encodeRaw s.toList)).strictFault? = none := by
  rw [Quoted.strictFault?, Quoted.decode_closed_encode]

/-- Two demands on the depth are met together or not at all. -/
theorem or_of_room (m n depth : Nat) :
    (if m ≤ depth then none else some Fault.malformed).or
        (if n ≤ depth then none else some .malformed) =
      if max m n ≤ depth then none else some .malformed := by
  by_cases hm : m ≤ depth <;> by_cases hn : n ≤ depth <;> simp [hm, hn]

mutual

/-- A value whose integers fit is refused as a whole only where it has no room. -/
theorem strictFault?_toTree (depth : Nat) : (v : Value) → v.Fits →
    v.toTree.strictFault? depth = if v.nesting ≤ depth then none else some .malformed
  | null, _ | bool _, _ => rfl
  | integer n, h => by
    rw [toTree, Tree.strictFault?, if_pos (Numeral.fitsDouble_ofInt h)]
    rfl
  | string s, _ => by
    rw [toTree, Tree.strictFault?, strictFault?_encodeRaw]
    rfl
  | array items, h => by
    cases depth with
    | zero => rfl
    | succ depth =>
      rw [toTree, Tree.strictFault?, strictItems?_toTrees depth items h, nesting]
      simp only [Ending.fault?, Option.or_none, Nat.add_le_add_iff_right]
  | object entries, h => by
    cases depth with
    | zero => rfl
    | succ depth =>
      rw [toTree, Tree.strictFault?, strictEntries?_toTreeEntries depth entries h, nesting]
      simp only [Ending.fault?, Option.or_none, Nat.add_le_add_iff_right]

theorem strictItems?_toTrees (depth : Nat) : (vs : List Value) → ItemsFit vs →
    Tree.strictItems? depth (toTrees vs) =
      if itemsNesting vs ≤ depth then none else some .malformed
  | [], _ => rfl
  | v :: vs, h => by
    rw [toTrees, Tree.strictItems?, strictFault?_toTree depth v h.1,
      strictItems?_toTrees depth vs h.2, or_of_room, itemsNesting]

theorem strictEntries?_toTreeEntries (depth : Nat) : (entries : List (String × Value)) →
    EntriesFit entries →
    Tree.strictEntries? depth (toTreeEntries entries) =
      if entriesNesting entries ≤ depth then none else some .malformed
  | [], _ => rfl
  | (key, v) :: entries, h => by
    rw [toTreeEntries, Tree.strictEntries?, strictFault?_encodeRaw, Option.none_or,
      strictFault?_toTree depth v h.1, strictEntries?_toTreeEntries depth entries h.2, or_of_room,
      entriesNesting]

end

end Value

/-! ## Readers that undo writing -/

namespace Reader

open Value (toTrees toTreeEntries itemsNesting entriesNesting)

/-- The result `a` if there is room for it. -/
def room (need depth : Nat) (a : α) : Except Fault α :=
  if need ≤ depth then .ok a else .error .malformed

theorem room_zero (depth : Nat) (a : α) : room 0 depth a = .ok a :=
  if_pos (Nat.zero_le depth)

/-- One container more needs one level more. -/
theorem room_succ (need depth : Nat) (a : α) :
    room (need + 1) (depth + 1) a = room need depth a := by
  simp only [room, Nat.add_le_add_iff_right]

theorem room_bind {need depth : Nat} {a : α} {f : α → Except Fault β} {b : β} (h : f a = .ok b) :
    (room need depth a >>= f) = room need depth b := by
  unfold room
  split
  · exact h
  · rfl

/-- Two results in turn need room for both. -/
theorem room_bind_room {m n depth : Nat} {a : α} {f : α → Except Fault β} {b : β}
    (h : f a = room n depth b) : (room m depth a >>= f) = room (max m n) depth b := by
  unfold room at h ⊢
  by_cases hm : m ≤ depth
  · have : (max m n ≤ depth) = (n ≤ depth) := by simp [hm]
    simp only [if_pos hm, this]
    exact h
  · have : ¬max m n ≤ depth := by omega
    rw [if_neg hm, if_neg this]
    rfl

theorem map_room (need depth : Nat) (a : α) (f : α → β) :
    (room need depth a).map f = room need depth (f a) := by
  unfold room
  split <;> rfl

/-- At the given depth the reader gives `a` for the written value if there is room. -/
def ReadsAt (depth : Nat) (read : Reader α) (v : Value) (a : α) : Prop :=
  read depth v.toTree = room v.nesting depth a

/-- At every depth the reader gives `a` for the written value if there is room. -/
def Reads (read : Reader α) (v : Value) (a : α) : Prop :=
  ∀ depth, ReadsAt depth read v a

theorem ReadsAt.bind {depth : Nat} {read : Reader α} {v : Value} {a : α} {f : α → Except Fault β}
    {b : β} (reads : ReadsAt depth read v a) (h : f a = .ok b) :
    ReadsAt depth (fun depth t => read depth t >>= f) v b := by
  unfold ReadsAt at reads
  show (read depth v.toTree >>= f) = room v.nesting depth b
  rw [reads, room_bind h]

theorem ReadsAt.map {depth : Nat} {read : Reader α} {v : Value} {a : α}
    (reads : ReadsAt depth read v a) (f : α → β) :
    ReadsAt depth (fun depth t => (read depth t).map f) v (f a) := by
  unfold ReadsAt at reads
  show (read depth v.toTree).map f = room v.nesting depth (f a)
  rw [reads, map_room]

/-! ## Scalars -/

theorem reads_string (s : String) : Reads string (.string s) s := by
  intro depth
  rw [ReadsAt, Value.nesting, room_zero, Value.toTree]
  exact Quoted.decode_closed_encode s

theorem reads_bool (b : Bool) : Reads bool (.bool b) b := by
  intro depth
  rw [ReadsAt, Value.nesting, room_zero, Value.toTree]
  rfl

theorem reads_integer {low high n : Int} (lower : low ≤ n) (upper : n ≤ high) :
    Reads (integer low high) (.integer n) n := by
  intro depth
  rw [ReadsAt, Value.nesting, room_zero, Value.toTree]
  simp only [integer, Numeral.toInt?_ofInt]
  rw [if_pos ⟨lower, upper⟩]

theorem reads_nullable_null (read : Reader α) : Reads (nullable read) .null none := by
  intro depth
  rw [ReadsAt, Value.nesting, room_zero, Value.toTree]
  rfl

theorem reads_nullable_string (s : String) : Reads (nullable string) (.string s) (some s) := by
  intro depth
  exact (reads_string s depth).map some

/-! ## Lists -/

theorem mapM_toTrees {depth : Nat} {item : Reader α} {write : α → Value} {as : List α}
    (reads : ∀ a ∈ as, ReadsAt depth item (write a) a) :
    (toTrees (as.map write)).mapM (item depth) = room (itemsNesting (as.map write)) depth as := by
  induction as with
  | nil => exact (room_zero depth []).symm
  | cons a as ih =>
    obtain ⟨first, more⟩ := List.forall_mem_cons.1 reads
    unfold ReadsAt at first
    rw [List.map_cons, toTrees, List.mapM_cons, first, ih more, itemsNesting]
    exact room_bind_room (room_bind rfl)

theorem ReadsAt.list {depth : Nat} {item : Reader α} {write : α → Value} {as : List α}
    (reads : ∀ a ∈ as, ReadsAt depth item (write a) a) :
    ReadsAt (depth + 1) (list item) (.array (as.map write)) as := by
  rw [ReadsAt, Value.toTree, Value.nesting, Reader.list, mapM_toTrees reads, room_succ]
  exact room_bind rfl

theorem reads_list {item : Reader α} {write : α → Value} {as : List α}
    (reads : ∀ a ∈ as, Reads item (write a) a) : Reads (list item) (.array (as.map write)) as
  | 0 => rfl
  | depth + 1 => ReadsAt.list fun a ha => reads a ha depth

/-! ## Records -/

/-- Read by these fields, and after those in `seen`, the written entries take `s` to `s'`. -/
def ReadsEntries (depth : Nat) (fields : List (Field σ)) (seen : List String) (s : σ)
    (es : List (String × Value)) (s' : σ) : Prop :=
  entries fields depth seen s (toTreeEntries es) = room (entriesNesting es) depth s'

theorem ReadsEntries.nil (depth : Nat) (fields : List (Field σ)) (seen : List String) (s : σ) :
    ReadsEntries depth fields seen s [] s :=
  (room_zero depth s).symm

theorem ReadsEntries.cons {depth : Nat} {fields : List (Field σ)} {seen : List String} {s s' : σ}
    {key : String} {v : Value} {es : List (String × Value)} {read : Reader α} {set : α → σ → σ}
    {a : α} (find : fields.find? (·.name == key) = some (.of key read set)) (fresh : key ∉ seen)
    (first : ReadsAt depth read v a)
    (more : ReadsEntries depth fields (key :: seen) (set a s) es s') :
    ReadsEntries depth fields seen s ((key, v) :: es) s' := by
  unfold ReadsEntries at more ⊢
  unfold ReadsAt at first
  have value : (Field.of key read set).read depth v.toTree s =
      room v.nesting depth (set a s) := by
    show (read depth v.toTree).map (set · s) = room v.nesting depth (set a s)
    rw [first, map_room]
  rw [toTreeEntries, entries, Quoted.decode_closed_encode, entriesNesting]
  simp only [bind, Except.bind, find, if_neg fresh]
  rw [value]
  exact room_bind_room more

theorem ReadsEntries.record {depth : Nat} {fields : List (Field σ)} {s s' : σ}
    {es : List (String × Value)} (reads : ReadsEntries depth fields [] s es s') :
    ReadsAt (depth + 1) (record fields s) (.object es) s' := by
  unfold ReadsEntries at reads
  rw [ReadsAt, Value.toTree, Value.nesting, Reader.record, reads, room_succ]
  exact room_bind rfl

theorem reads_record {fields : List (Field σ)} {s s' : σ} {es : List (String × Value)}
    (reads : ∀ depth, ReadsEntries depth fields [] s es s') :
    Reads (record fields s) (.object es) s'
  | 0 => rfl
  | depth + 1 => (reads depth).record

/-- A record whose parts are put together after it has been read. -/
theorem reads_parts {fields : List (Field σ)} {s s' : σ} {es : List (String × Value)}
    {build : σ → Except Fault α} {a : α} (reads : ∀ depth, ReadsEntries depth fields [] s es s')
    (h : build s' = .ok a) :
    Reads (fun depth t => record fields s depth t >>= build) (.object es) a :=
  fun depth => (reads_record reads depth).bind h

/-! ## Tagged records -/

/-- Entries after the tag are kept as they are when there is room for them. -/
theorem tagEntries_toTreeEntries (tag : Tree → Except Fault κ) (depth : Nat) (k : κ)
    {es : List (String × Value)} (keys : ∀ e ∈ es, e.1 ≠ "kind") (fits : Value.EntriesFit es) :
    tagEntries tag depth (some k) (toTreeEntries es) =
      room (entriesNesting es) depth (some k, toTreeEntries es) := by
  induction es with
  | nil => exact (room_zero depth _).symm
  | cons e es ih =>
    obtain ⟨key, v⟩ := e
    obtain ⟨first, more⟩ := List.forall_mem_cons.1 keys
    have check : v.toTree.check depth = room v.nesting depth () := by
      rw [Tree.check, Value.strictFault?_toTree depth v fits.1, room]
      by_cases h : v.nesting ≤ depth
      · simp only [if_pos h]
      · simp only [if_neg h]
    rw [toTreeEntries, tagEntries, Quoted.decode_closed_encode, entriesNesting]
    simp only [bind, Except.bind, if_neg first]
    rw [check, ih more fits.2]
    exact room_bind_room (room_bind rfl)

/-- The tag and the other entries of a written record that begins with its tag. -/
theorem tagged_object {tag : Tree → Except Fault κ} {kind : String} {k : κ}
    (judge : tag (Value.string kind).toTree = .ok k) (depth : Nat) {es : List (String × Value)}
    (keys : ∀ e ∈ es, e.1 ≠ "kind") (fits : Value.EntriesFit es) :
    tagged tag depth (Value.object (("kind", .string kind) :: es)).toTree =
      room (Value.object (("kind", .string kind) :: es)).nesting depth
        (k, (Value.object es).toTree) := by
  cases depth with
  | zero => rfl
  | succ depth =>
    have split : tagEntries tag depth none (toTreeEntries (("kind", .string kind) :: es)) =
        room (entriesNesting es) depth (some k, toTreeEntries es) := by
      rw [toTreeEntries, tagEntries, Quoted.decode_closed_encode]
      simp only [bind, Except.bind, if_true, Option.isSome_none, Bool.false_eq_true, if_false,
        judge]
      exact tagEntries_toTreeEntries tag depth k keys fits
    rw [Value.toTree, Reader.tagged, split, Value.nesting, entriesNesting, Value.nesting,
      Nat.zero_max, room_succ]
    exact room_bind rfl

/-- A reader that looks at the tag first and then reads the content, for which there is room. -/
theorem readsAt_tagged {tag : Tree → Except Fault κ} {kind : String} {k : κ}
    (judge : tag (Value.string kind).toTree = .ok k) {depth : Nat} (es : List (String × Value))
    (keys : ∀ e ∈ es, e.1 ≠ "kind") (fits : Value.EntriesFit es)
    {inner : κ × Tree → Except Fault α} {a : α}
    (reads : (Value.object es).nesting ≤ depth → inner (k, (Value.object es).toTree) = .ok a) :
    (tagged tag depth (Value.object (("kind", .string kind) :: es)).toTree >>= inner) =
      room (Value.object (("kind", .string kind) :: es)).nesting depth a := by
  have need : (Value.object (("kind", .string kind) :: es)).nesting =
      (Value.object es).nesting := by
    simp only [Value.nesting, entriesNesting, Nat.zero_max]
  rw [tagged_object judge depth keys fits, need]
  by_cases h : (Value.object es).nesting ≤ depth
  · exact room_bind (reads h)
  · simp only [room, if_neg h]
    rfl

/-- What is read where there is room is read as content too. -/
theorem content_of_readsAt {depth : Nat} {read : Reader α} {v : Value} {a : α}
    (reads : ReadsAt depth read v a) (enough : v.nesting ≤ depth) :
    content (read depth v.toTree) = .ok a := by
  unfold ReadsAt at reads
  rw [reads, room, if_pos enough]
  rfl

/-! ## Whole texts -/

/-- A text with the tokens of a written value is read as that value. -/
theorem document_eq {read : Reader α} {text : String} {v : Value} {a : α} (reads : Reads read v a)
    (written : tokens text.toList = v.tokens) :
    document read text = room v.nesting maxDepth a := by
  have value := reads maxDepth
  unfold ReadsAt at value
  rw [document, written, Value.ofTokens_tokens]
  simp only [value]
  exact room_bind rfl

end Reader

end HierarchyAccessors.Json
