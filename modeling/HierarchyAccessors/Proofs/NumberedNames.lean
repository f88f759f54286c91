import HierarchyAccessors.Generation
import Mathlib.Data.List.Sublists
import Std.Data.String.ToNat

/-!
# Numbered names are free

`freeName` tries the numbered forms of a name from 2 on. Different numbers give different names, so
among one more candidates than there are names in use one is free: the search never runs out, and
what it returns is the first candidate that is not in use (`freeName_eq_first`).
-/

namespace HierarchyAccessors

/-- The stem of a name with the suffix is what stands before the suffix. -/
theorem unitStem_append_unitSuffix (s : String) : unitStem (s ++ unitSuffix) = s := by
  have suffix : unitSuffix.toList.isSuffixOf (s ++ unitSuffix).toList = true := by simp
  unfold unitStem
  rw [if_pos suffix]
  simp

theorem numberedName_injective (name : String) : Function.Injective (numberedName name) := by
  intro m n h
  have chars := congrArg String.toList h
  simp only [numberedName, String.toList_append] at chars
  have number := List.append_cancel_left (List.append_cancel_right chars)
  exact Nat.repr_injective (String.toList_inj.1 number)

/-! ## The search -/

theorem le_firstFree (name : String) (taken : List String) (count n : Nat) :
    n ≤ firstFree name taken count n := by
  fun_induction firstFree name taken count n with
  | case1 n => exact le_rfl
  | case2 count n _ ih => exact le_trans (Nat.le_succ n) ih
  | case3 count n => exact le_rfl

/-- Every number that the search has passed has its name in use. -/
theorem mem_taken_of_lt_firstFree {name : String} {taken : List String} {count n m : Nat}
    (le : n ≤ m) (lt : m < firstFree name taken count n) : numberedName name m ∈ taken := by
  fun_induction firstFree name taken count n with
  | case1 n => omega
  | case2 count n hn ih =>
    rcases Nat.eq_or_lt_of_le le with rfl | le
    · exact hn
    · exact ih le lt
  | case3 count n => omega

/-- Where the search finds no free number it has passed all it was to try. -/
theorem firstFree_eq_of_mem {name : String} {taken : List String} {count n : Nat}
    (h : numberedName name (firstFree name taken count n) ∈ taken) :
    firstFree name taken count n = n + count := by
  fun_induction firstFree name taken count n with
  | case1 n => rfl
  | case2 count n _ ih => rw [ih h]; omega
  | case3 count n hn => exact absurd h hn

/-- The name that is found is not in use. -/
theorem freeName_not_mem (name : String) (taken : List String) : freeName name taken ∉ taken := by
  intro h
  have found := firstFree_eq_of_mem h
  -- All candidates are in use, and there are more of them than names.
  have used : ∀ m ∈ List.range' 2 (taken.length + 1), numberedName name m ∈ taken := by
    intro m hm
    rw [List.mem_range'_1] at hm
    exact mem_taken_of_lt_firstFree hm.1 (by rw [found]; exact hm.2)
  have candidates : ((List.range' 2 (taken.length + 1)).map (numberedName name)).Nodup :=
    (List.nodup_range').map (numberedName_injective name)
  have sub : (List.range' 2 (taken.length + 1)).map (numberedName name) ⊆ taken := by
    intro s hs
    obtain ⟨m, hm, rfl⟩ := List.mem_map.1 hs
    exact used m hm
  have := (candidates.subperm sub).length_le
  rw [List.length_map, List.length_range'] at this
  omega

/-- The name that is found is the first numbered name, from 2 on, that is not in use. -/
theorem freeName_eq_first (name : String) (taken : List String) :
    ∃ n, 2 ≤ n ∧ freeName name taken = numberedName name n ∧ numberedName name n ∉ taken ∧
      ∀ m, 2 ≤ m → m < n → numberedName name m ∈ taken :=
  ⟨_, le_firstFree name taken _ 2, rfl, freeName_not_mem name taken,
    fun _ => mem_taken_of_lt_firstFree⟩

end HierarchyAccessors
