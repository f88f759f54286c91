import HierarchyAccessors.Proofs.Json.Reordering
import HierarchyAccessors.Proofs.Json.WrittenTree

/-!
# What can be read as a whole

A tree is legible if it is whole, its strings hold no surrogate code unit without its partner
(`Quoted.Legible`), and its numbers are in range. None of this says what the tree is about. A
legible tree can be read as a whole wherever there is room for it
(`Tree.strictFault?_eq_none_of_legible`), and what is written is legible if its numbers are in
range (`Value.legible_toTree`).
-/

namespace HierarchyAccessors.Json

namespace Quoted

/-- A high surrogate is followed by a low one, and a low one follows a high one. -/
inductive Paired : List Piece → Prop
  | nil : Paired []
  | char (c : Char) {ps : List Piece} (more : Paired ps) : Paired (.char c :: ps)
  | unit {n : Nat} {ps : List Piece} (high : isHighSurrogate n = false)
      (low : isLowSurrogate n = false) (more : Paired ps) : Paired (.unit n :: ps)
  | pair {n m : Nat} {ps : List Piece} (high : isHighSurrogate n = true)
      (low : isLowSurrogate m = true) (more : Paired ps) : Paired (.unit n :: .unit m :: ps)

theorem join_unit {n : Nat} (high : isHighSurrogate n = false) (low : isLowSurrogate n = false)
    (ps : List Piece) :
    Quoted.join (.unit n :: ps) none = (Quoted.join ps none).map (Char.ofNat n :: ·) := by
  match ps with
  | [] | .char _ :: _ | .unit _ :: _ => simp [Quoted.join, high, low]

theorem Paired.join {ps : List Piece} (h : Paired ps) :
    ∃ cs, Quoted.join ps none = .ok cs := by
  induction h with
  | nil => exact ⟨[], by rw [Quoted.join]⟩
  | char c _ ih =>
    obtain ⟨cs, read⟩ := ih
    exact ⟨c :: cs, by rw [Quoted.join, read]; rfl⟩
  | unit high low _ ih =>
    obtain ⟨cs, read⟩ := ih
    exact ⟨_, by rw [join_unit high low, read]; rfl⟩
  | pair high low _ ih =>
    obtain ⟨cs, read⟩ := ih
    exact ⟨_, by rw [Quoted.join, if_pos (by simp [high, low]), read]; rfl⟩

theorem paired_of_join {ps : List Piece} {cs : List Char} (h : Quoted.join ps none = .ok cs) :
    Paired ps := by
  generalize none_eq : none = fault at h
  fun_induction Quoted.join ps fault generalizing cs with
  | case1 => exact .nil
  | case2 => cases h
  | case3 c ps fault ih =>
    obtain ⟨cs, read, -⟩ := map_eq_ok_iff.1 h
    exact .char c (ih none_eq read)
  | case4 high low ps fault pair ih =>
    obtain ⟨cs, read, -⟩ := map_eq_ok_iff.1 h
    obtain ⟨isHigh, isLow⟩ := Bool.and_eq_true_iff.1 pair
    exact .pair isHigh isLow (ih none_eq read)
  | case5 | case7 | case8 => cases h
  | case6 _ _ _ _ _ single ih | case9 _ _ _ _ _ single ih =>
    obtain ⟨cs, read, -⟩ := map_eq_ok_iff.1 h
    simp only [Bool.or_eq_true, not_or, Bool.not_eq_true] at single
    exact .unit single.1 single.2 (ih none_eq read)

/-- A string literal of the grammar in which surrogates are paired. -/
def Legible (q : Quoted) : Prop :=
  ∃ raw ps, q = .closed raw ∧ Spelled ps raw ∧ Paired ps

theorem Legible.strictFault?_eq_none {q : Quoted} (h : q.Legible) : q.strictFault? = none := by
  obtain ⟨raw, ps, rfl, spelled, paired⟩ := h
  obtain ⟨cs, read⟩ := paired.join
  refine strictFault?_eq_none_iff.2 ⟨String.ofList cs, ?_⟩
  rw [decode, spelled.pieces, read]
  rfl

/-- What is written between quotes is legible. -/
theorem legible_encode (s : String) : (closed (encodeRaw s.toList)).Legible := by
  have cut := scan_encodeRaw_append s.toList []
  obtain ⟨_, ps, ⟨⟩, -, spelled⟩ := spelled_of_scan cut (Value.skipFault?_encodeRaw s)
  have read := decode_closed_encode s
  rw [decode, spelled.pieces] at read
  obtain ⟨cs, joined, -⟩ := map_eq_ok_iff.1 read
  exact ⟨_, ps, rfl, spelled, paired_of_join joined⟩

end Quoted

namespace Tree

mutual

/-- The number literals of a tree. -/
def numbers : Tree → List Numeral
  | number n => [n]
  | array items _ => itemsNumbers items
  | object entries _ => entriesNumbers entries
  | null | bool _ | string _ | broken _ _ | absent => []

def itemsNumbers : List Tree → List Numeral
  | [] => []
  | t :: ts => t.numbers ++ itemsNumbers ts

def entriesNumbers : List (Quoted × Tree) → List Numeral
  | [] => []
  | (_, t) :: es => t.numbers ++ entriesNumbers es

end

theorem itemsNumbers_eq_flatMap (ts : List Tree) : itemsNumbers ts = ts.flatMap numbers := by
  induction ts with
  | nil => rfl
  | cons t ts ih => rw [itemsNumbers, ih, List.flatMap_cons]

theorem entriesNumbers_eq_flatMap (es : List (Quoted × Tree)) :
    entriesNumbers es = es.flatMap (·.2.numbers) := by
  induction es with
  | nil => rfl
  | cons e es ih => rw [entriesNumbers, ih, List.flatMap_cons]

theorem itemsNesting_le_iff {depth : Nat} {ts : List Tree} :
    itemsNesting ts ≤ depth ↔ ∀ t ∈ ts, t.nesting ≤ depth := by
  induction ts with
  | nil => simp [itemsNesting]
  | cons t ts ih => rw [itemsNesting, Nat.max_le, ih, List.forall_mem_cons]

theorem entriesNesting_le_iff {depth : Nat} {es : List (Quoted × Tree)} :
    entriesNesting es ≤ depth ↔ ∀ e ∈ es, e.2.nesting ≤ depth := by
  induction es with
  | nil => simp [entriesNesting]
  | cons e es ih => rw [entriesNesting, Nat.max_le, ih, List.forall_mem_cons]

/-- Nothing is missing, surrogates are paired, and numbers are in range. -/
structure Legible (inRange : Numeral → Prop) (t : Tree) : Prop where
  whole : t.Whole
  literals : ∀ q ∈ t.literals, q.Legible
  numbers : ∀ n ∈ t.numbers, inRange n

theorem Legible.item {inRange : Numeral → Prop} {ts : List Tree} {ending : Ending}
    (h : (array ts ending).Legible inRange) {t : Tree} (mem : t ∈ ts) : t.Legible inRange where
  whole := (whole_array_iff.1 h.whole).1 t mem
  literals q hq := h.literals q <| by
    rw [Tree.literals, itemsLiterals_eq_flatMap]
    exact List.mem_flatMap.2 ⟨t, mem, hq⟩
  numbers n hn := h.numbers n <| by
    rw [Tree.numbers, itemsNumbers_eq_flatMap]
    exact List.mem_flatMap.2 ⟨t, mem, hn⟩

theorem Legible.entry {inRange : Numeral → Prop} {es : List (Quoted × Tree)} {ending : Ending}
    (h : (object es ending).Legible inRange) {e : Quoted × Tree} (mem : e ∈ es) :
    e.1.Legible ∧ e.2.Legible inRange := by
  have literals : ∀ q ∈ e.1 :: e.2.literals, q.Legible := fun q hq => h.literals q <| by
    rw [Tree.literals, entriesLiterals_eq_flatMap]
    exact List.mem_flatMap.2 ⟨e, mem, hq⟩
  refine ⟨literals _ List.mem_cons_self, ((whole_object_iff.1 h.whole).1 e mem).2,
    fun q hq => literals q (List.mem_cons_of_mem _ hq), fun n hn => h.numbers n ?_⟩
  rw [Tree.numbers, entriesNumbers_eq_flatMap]
  exact List.mem_flatMap.2 ⟨e, mem, hn⟩

/-- A legible tree can be read as a whole where it does not nest too deep. -/
theorem strictFault?_eq_none_of_legible {depth : Nat} {t : Tree}
    (legible : t.Legible (·.fitsDouble = true)) (shallow : t.nesting ≤ depth) :
    t.strictFault? depth = none := by
  have scalar {q : Quoted} (h : (string q).Legible (·.fitsDouble = true)) :
      q.strictFault? = none :=
    (h.literals q (List.mem_singleton.2 rfl)).strictFault?_eq_none
  have number {n : Numeral} (h : (number n).Legible (·.fitsDouble = true)) (depth : Nat) :
      (number n).strictFault? depth = none := by
    rw [strictFault?, if_pos (h.numbers n (List.mem_singleton.2 rfl))]
  induction depth generalizing t with
  | zero =>
    cases t with
    | null | bool => rfl
    | number n => exact number legible 0
    | string q => exact scalar legible
    | array | object => exact absurd shallow (Nat.not_succ_le_zero _)
    | broken => exact absurd legible.whole (not_whole_broken _ _)
    | absent => exact absurd legible.whole not_whole_absent
  | succ depth ih =>
    cases t with
    | null | bool => rfl
    | number n => exact number legible _
    | string q => exact scalar legible
    | array ts ending =>
      have items := itemsNesting_le_iff.1 (Nat.le_of_succ_le_succ shallow)
      exact strictFault?_array_eq_none_iff.2
        ⟨fun t ht => ih (legible.item ht) (items t ht), (whole_array_iff.1 legible.whole).2⟩
    | object es ending =>
      have entries := entriesNesting_le_iff.1 (Nat.le_of_succ_le_succ shallow)
      exact strictFault?_object_eq_none_iff.2
        ⟨fun e he => ⟨(legible.entry he).1.strictFault?_eq_none,
          ih (legible.entry he).2 (entries e he)⟩, (whole_object_iff.1 legible.whole).2⟩
    | broken => exact absurd legible.whole (not_whole_broken _ _)
    | absent => exact absurd legible.whole not_whole_absent

end Tree

/-! ## What is written -/

namespace Value

mutual

theorem legible_literals : (v : Value) → ∀ q ∈ v.toTree.literals, q.Legible
  | null | bool _ | integer _ => by simp [toTree, Tree.literals]
  | string s => by
    simp only [toTree, Tree.literals, List.forall_mem_singleton]
    exact Quoted.legible_encode s
  | array items => by
    rw [toTree, Tree.literals]
    exact legible_itemsLiterals items
  | object entries => by
    rw [toTree, Tree.literals]
    exact legible_entriesLiterals entries

theorem legible_itemsLiterals : (vs : List Value) →
    ∀ q ∈ Tree.itemsLiterals (toTrees vs), q.Legible
  | [] => by simp [toTrees, Tree.itemsLiterals]
  | v :: vs => by
    rw [toTrees, Tree.itemsLiterals]
    exact List.forall_mem_append.2 ⟨legible_literals v, legible_itemsLiterals vs⟩

theorem legible_entriesLiterals : (entries : List (String × Value)) →
    ∀ q ∈ Tree.entriesLiterals (toTreeEntries entries), q.Legible
  | [] => by simp [toTreeEntries, Tree.entriesLiterals]
  | (key, v) :: entries => by
    rw [toTreeEntries, Tree.entriesLiterals]
    exact List.forall_mem_cons.2 ⟨Quoted.legible_encode key,
      List.forall_mem_append.2 ⟨legible_literals v, legible_entriesLiterals entries⟩⟩

end

theorem legible_toTree {inRange : Numeral → Prop} {v : Value}
    (numbers : ∀ n ∈ v.toTree.numbers, inRange n) : v.toTree.Legible inRange :=
  ⟨v.whole_toTree, v.legible_literals, numbers⟩

end Value

end HierarchyAccessors.Json
