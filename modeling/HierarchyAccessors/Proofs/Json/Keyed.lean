import HierarchyAccessors.Proofs.Json.Reading
import HierarchyAccessors.Proofs.Json.Steady

/-!
# Objects with written keys

An object whose keys are written by this library, with any values (`keyed`). Its values may come
from elsewhere, so this is not just what is written. It is read entry by entry
(`Reader.entries_keyed`), and split at its tag if it has one (`Reader.tagged_keyed`).
-/

namespace HierarchyAccessors.Json

/-- Entries with written keys. -/
def keyed (es : List (String × Tree)) : List (Quoted × Tree) :=
  es.map fun e => (.closed (encodeRaw e.1.toList), e.2)

theorem toTree_object (es : List (String × Value)) :
    (Value.object es).toTree = .object (keyed (es.map fun e => (e.1, e.2.toTree))) .closed := by
  have entries : Value.toTreeEntries es = keyed (es.map fun e => (e.1, e.2.toTree)) := by
    induction es with
    | nil => rfl
    | cons e es ih =>
      rw [Value.toTreeEntries, ih]
      rfl
  rw [Value.toTree, entries]

theorem toTree_array (vs : List Value) :
    (Value.array vs).toTree = .array (vs.map Value.toTree) .closed := by
  have items : Value.toTrees vs = vs.map Value.toTree := by
    induction vs with
    | nil => rfl
    | cons v vs ih => rw [Value.toTrees, ih, List.map_cons]
  rw [Value.toTree, items]

/-! ## Values read as a whole -/

theorem strictFault?_string (s : String) (depth : Nat) :
    (Value.string s).toTree.strictFault? depth = none :=
  Value.strictFault?_encodeRaw s

theorem strict_keyed {depth : Nat} {es : List (String × Tree)}
    (strict : ∀ e ∈ es, e.2.strictFault? depth = none) :
    ∀ e ∈ keyed es, e.1.strictFault? = none ∧ e.2.strictFault? depth = none := by
  intro e he
  obtain ⟨⟨key, t⟩, mem, rfl⟩ := List.mem_map.1 he
  exact ⟨Value.strictFault?_encodeRaw key, strict _ mem⟩

theorem strictFault?_array {us : List Tree} {depth : Nat}
    (strict : ∀ u ∈ us, u.strictFault? depth = none) :
    (Tree.array us .closed).strictFault? (depth + 1) = none :=
  Tree.strictFault?_array_eq_none_iff.2 ⟨strict, rfl⟩

namespace Reader

/-! ## Tags -/

theorem isTag_encode (key : String) :
    isTag (.closed (encodeRaw key.toList)) = decide (key = "kind") := by
  simp [isTag, Quoted.decode_closed_encode]

theorem filter_isTag_keyed (es : List (String × Tree)) :
    (keyed es).filter (isTag ·.1) = keyed (es.filter (·.1 = "kind")) := by
  rw [keyed, List.filter_map, keyed]
  congr 2
  funext e
  exact isTag_encode e.1

theorem filter_not_isTag_keyed (es : List (String × Tree)) :
    (keyed es).filter (!isTag ·.1) = keyed (es.filter (·.1 ≠ "kind")) := by
  rw [keyed, List.filter_map, keyed]
  congr 2
  funext e
  simp [isTag_encode]

variable {α σ κ : Type}

/-- The tag and the other entries of an object that begins with its tag. -/
theorem tagged_keyed {tag : Tree → Except Fault κ} {kind : String} {k : κ}
    (judge : tag (Value.string kind).toTree = .ok k) {depth : Nat} {es : List (String × Tree)}
    (keys : ∀ e ∈ es, e.1 ≠ "kind") (strict : ∀ e ∈ es, e.2.strictFault? depth = none) :
    tagged tag (depth + 1) (.object (keyed (("kind", (Value.string kind).toTree) :: es)) .closed) =
      .ok (k, .object (keyed es) .closed) := by
  have entries := strict_keyed (List.forall_mem_cons (a := ("kind", (Value.string kind).toTree)).2
    ⟨strictFault?_string kind depth, strict⟩)
  have none : es.filter (·.1 = "kind") = [] := by simpa using keys
  have all : es.filter (·.1 ≠ "kind") = es := by simpa using keys
  have single : (keyed (("kind", (Value.string kind).toTree) :: es)).filter (isTag ·.1) =
      keyed [("kind", (Value.string kind).toTree)] := by
    rw [filter_isTag_keyed, List.filter_cons_of_pos (by simp), none]
  have others : (keyed (("kind", (Value.string kind).toTree) :: es)).filter (!isTag ·.1) =
      keyed es := by
    rw [filter_not_isTag_keyed, List.filter_cons_of_neg (by simp), all]
  have has : HasTag tag depth (keyed (("kind", (Value.string kind).toTree) :: es)) k :=
    ⟨fun e he => (entries e he).1, ⟨_, single, judge⟩,
      fun e he => (entries e (List.mem_filter.1 he).1).2⟩
  exact tagged_object_eq_ok_iff.2 ⟨has, rfl, by rw [others]⟩

/-! ## Entries -/

/-- An entry that is read into its part of the record. -/
theorem entries_keyed {fields : List (Field σ)} {depth : Nat} {seen : List String} {s s' : σ}
    {key : String} {t : Tree} {es : List (Quoted × Tree)} {read : Reader α} {set : α → σ → σ}
    {a : α} (find : fields.find? (·.name == key) = some (.of key read set)) (fresh : key ∉ seen)
    (value : read depth t = .ok a)
    (more : entries fields depth (key :: seen) (set a s) es = .ok s') :
    entries fields depth seen s ((.closed (encodeRaw key.toList), t) :: es) = .ok s' := by
  have first : (Field.of key read set).read depth t s = .ok (set a s) :=
    map_eq_ok_iff.2 ⟨a, value, rfl⟩
  exact entries_cons_eq_ok_iff.2
    ⟨_, _, .known (Quoted.decode_closed_encode key) find fresh first, more⟩

theorem string_toTree (s : String) (depth : Nat) : string depth (Value.string s).toTree = .ok s :=
  Quoted.decode_closed_encode s

end Reader

end HierarchyAccessors.Json
