import HierarchyAccessors.Proofs.Json.WholeTree
import HierarchyAccessors.Proofs.Json.Written

/-!
# The tree of a written value

The tokens of a written value are those of the tree that `Value.toTree` describes
(`tokens_toTree`), and nothing of that tree is missing (`whole_toTree`). Both texts of a value
therefore spell its tree (`spelledBy_compact`, `spelledBy_pretty`), and nest as deep as it does
(`textNesting_compact`, `textNesting_pretty`).
-/

namespace HierarchyAccessors.Json.Value

open HierarchyAccessors.Json.Tree (ofTokens)

/-! ## Tokens -/

mutual

theorem tokens_toTree : (v : Value) → v.toTree.tokens = v.tokens
  | null | bool _ | integer _ | string _ => rfl
  | array [] => rfl
  | array (v :: vs) => by
    rw [toTree, toTrees, Tree.tokens, tokens, tokens_toTree v, itemsTokens_toTrees vs]
  | object [] => rfl
  | object ((key, v) :: entries) => by
    rw [toTree, toTreeEntries, Tree.tokens, tokens, tokens_toTree v,
      entriesTokens_toTreeEntries entries, stringToken]

theorem itemsTokens_toTrees : (vs : List Value) →
    Tree.itemsTokens .closed (toTrees vs) = itemsTokens vs
  | [] => rfl
  | v :: vs => by
    rw [toTrees, Tree.itemsTokens, itemsTokens, tokens_toTree v, itemsTokens_toTrees vs]

theorem entriesTokens_toTreeEntries : (entries : List (String × Value)) →
    Tree.entriesTokens .closed (toTreeEntries entries) = entriesTokens entries
  | [] => rfl
  | (key, v) :: entries => by
    rw [toTreeEntries, Tree.entriesTokens, entriesTokens, tokens_toTree v,
      entriesTokens_toTreeEntries entries, stringToken]

end

theorem skipFault?_encodeRaw (s : String) :
    (Quoted.closed (encodeRaw s.toList)).skipFault? = none :=
  Quoted.skipFault?_of_decode (Quoted.decode_closed_encode s)

mutual

/-- Nothing is missing from the tree of a written value. -/
theorem whole_toTree : (v : Value) → v.toTree.Whole
  | null | bool _ | integer _ => rfl
  | string s => skipFault?_encodeRaw s
  | array items => Tree.whole_array_iff.2 ⟨Tree.skipItems?_eq_none_iff.1 (whole_toTrees items), rfl⟩
  | object entries =>
    Tree.whole_object_iff.2 ⟨Tree.skipEntries?_eq_none_iff.1 (whole_toTreeEntries entries), rfl⟩

theorem whole_toTrees : (vs : List Value) → Tree.skipItems? (toTrees vs) = none
  | [] => rfl
  | v :: vs => by
    have first : v.toTree.skipFault? = none := whole_toTree v
    rw [toTrees, Tree.skipItems?, first, whole_toTrees vs]
    rfl

theorem whole_toTreeEntries : (entries : List (String × Value)) →
    Tree.skipEntries? (toTreeEntries entries) = none
  | [] => rfl
  | (key, v) :: entries => by
    have first : v.toTree.skipFault? = none := whole_toTree v
    rw [toTreeEntries, Tree.skipEntries?, skipFault?_encodeRaw, first,
      whole_toTreeEntries entries]
    rfl

end

/-- The tokens of a value have its tree, and none is left over. -/
theorem ofTokens_tokens (v : Value) : ofTokens v.tokens = (v.toTree, []) := by
  rw [← tokens_toTree, Tree.ofTokens_tokens v.whole_toTree]

/-! ## Texts -/

/-- A text with the tokens of a value spells its tree. -/
theorem spelledBy_of_tokens {v : Value} {text : String}
    (written : Json.tokens text.toList = v.tokens) : v.toTree.SpelledBy text := by
  rw [Tree.SpelledBy, tokens_toTree, ← written]
  refine spells_tokens ?_
  rw [written, ← tokens_toTree]
  exact (Tree.whole_tokens_iff _).2 v.whole_toTree

theorem spelledBy_compact (v : Value) : v.toTree.SpelledBy v.compact :=
  spelledBy_of_tokens v.tokens_compact

theorem spelledBy_pretty (v : Value) : v.toTree.SpelledBy v.pretty :=
  spelledBy_of_tokens v.tokens_pretty

/-! ## Nesting -/

mutual

/-- The number of containers around the innermost part of a value. -/
def nesting : Value → Nat
  | null | bool _ | integer _ | string _ => 0
  | array items => itemsNesting items + 1
  | object entries => entriesNesting entries + 1

def itemsNesting : List Value → Nat
  | [] => 0
  | v :: vs => max v.nesting (itemsNesting vs)

def entriesNesting : List (String × Value) → Nat
  | [] => 0
  | (_, v) :: entries => max v.nesting (entriesNesting entries)

end

mutual

theorem nesting_toTree : (v : Value) → v.toTree.nesting = v.nesting
  | null | bool _ | integer _ | string _ => rfl
  | array items => by rw [toTree, Tree.nesting, nesting, itemsNesting_toTrees items]
  | object entries => by rw [toTree, Tree.nesting, nesting, entriesNesting_toTreeEntries entries]

theorem itemsNesting_toTrees : (vs : List Value) →
    Tree.itemsNesting (toTrees vs) = itemsNesting vs
  | [] => rfl
  | v :: vs => by
    rw [toTrees, Tree.itemsNesting, itemsNesting, nesting_toTree v, itemsNesting_toTrees vs]

theorem entriesNesting_toTreeEntries : (entries : List (String × Value)) →
    Tree.entriesNesting (toTreeEntries entries) = entriesNesting entries
  | [] => rfl
  | (_, v) :: entries => by
    rw [toTreeEntries, Tree.entriesNesting, entriesNesting, nesting_toTree v,
      entriesNesting_toTreeEntries entries]

end

theorem textNesting_compact (v : Value) : textNesting v.compact = v.nesting := by
  rw [v.spelledBy_compact.textNesting_eq, nesting_toTree]

theorem textNesting_pretty (v : Value) : textNesting v.pretty = v.nesting := by
  rw [v.spelledBy_pretty.textNesting_eq, nesting_toTree]

end HierarchyAccessors.Json.Value
