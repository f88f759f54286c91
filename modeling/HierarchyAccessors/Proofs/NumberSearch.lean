import HierarchyAccessors.Proofs.NumberedNames
import Mathlib.Data.Finset.Card
import Mathlib.Data.Finset.Dedup
import Mathlib.Order.Interval.Finset.Nat

/-!
# The search for a free numbered name

A search tries one candidate after the other until it meets one that is not taken, and nothing in it
says when to stop. `Search` is the search as it goes, with the number of candidates that it tries
and with numbers that must stay below a limit.

**Theorem (`freeName_by_search`).** The search from 2 on ends after at most one candidate more than
there are names, at the least number whose name is free, and `freeName` is that name.

A search ends where all candidates before are taken and the next one is not (`Search.of_least`).
Different numbers give different candidates, so those before are at most as many as the names
(`le_add_card_of_taken`).
-/

namespace HierarchyAccessors

/-! ## The search -/

/-- The search from the number `n` on tries `tried` candidates and ends at the number `found`. It
counts on as long as the numbers are below `limit`. -/
inductive Search (limit : Nat) (candidate : Nat → String) (taken : List String) :
    (n tried found : Nat) → Prop
  | free {n : Nat} (h : candidate n ∉ taken) : Search limit candidate taken n 1 n
  | next {n tried found : Nat} (h : candidate n ∈ taken) (fits : n + 1 < limit)
      (rest : Search limit candidate taken (n + 1) tried found) :
      Search limit candidate taken n (tried + 1) found

variable {limit : Nat} {candidate : Nat → String} {taken : List String} {n found : Nat}

namespace Search

/-- A search has one end. -/
theorem unique {tried tried' found' : Nat} (h : Search limit candidate taken n tried found)
    (h' : Search limit candidate taken n tried' found') : tried' = tried ∧ found' = found := by
  induction h generalizing tried' with
  | free free =>
    cases h' with
    | free => exact ⟨rfl, rfl⟩
    | next used => exact absurd used free
  | next used _ _ ih =>
    cases h' with
    | free free => exact absurd used free
    | next _ _ rest' =>
      obtain ⟨same, rfl⟩ := ih rest'
      exact ⟨by rw [same], rfl⟩

/-- The search goes on to the first candidate that is free. -/
theorem of_least (le : n ≤ found) (below : found < limit) (free : candidate found ∉ taken)
    (used : ∀ m, n ≤ m → m < found → candidate m ∈ taken) :
    Search limit candidate taken n (found - n + 1) found := by
  induction le using Nat.decreasingInduction with
  | self =>
    rw [Nat.sub_self]
    exact .free free
  | of_succ n lt ih =>
    have rest := ih fun m le => used m (Nat.le_of_succ_le le)
    have count : found - n = found - (n + 1) + 1 := by omega
    rw [count]
    exact .next (used n le_rfl lt) (by omega) rest

end Search

/-- The candidates that are passed are different names. -/
theorem le_add_card_of_taken (injective : Function.Injective candidate)
    (used : ∀ m, n ≤ m → m < found → candidate m ∈ taken) : found ≤ n + taken.toFinset.card := by
  have inside : (Finset.Ico n found).image candidate ⊆ taken.toFinset := by
    intro name mem
    obtain ⟨m, passed, rfl⟩ := Finset.mem_image.1 mem
    obtain ⟨le, lt⟩ := Finset.mem_Ico.1 passed
    exact List.mem_toFinset.2 (used m le lt)
  have count := Finset.card_le_card inside
  rw [Finset.card_image_of_injective _ injective, Nat.card_Ico] at count
  omega

/-! ## The stem -/

/-- What stands before one suffix at the end, or all of a name that does not end in it. -/
inductive IsStem (name : String) : String → Prop
  | cut {stem : String} (h : name = stem ++ ".g.cs") : IsStem name stem
  | whole (h : ∀ stem, name ≠ stem ++ ".g.cs") : IsStem name name

theorem isStem_unitStem (name : String) : IsStem name (unitStem name) := by
  by_cases suffixed : ∃ stem, name = stem ++ unitSuffix
  · obtain ⟨stem, rfl⟩ := suffixed
    rw [unitStem_append_unitSuffix]
    exact .cut rfl
  · have whole : unitStem name = name := by
      unfold unitStem
      refine if_neg fun ends => suffixed ?_
      obtain ⟨stem, parts⟩ := List.isSuffixOf_iff_suffix.1 ends
      exact ⟨String.ofList stem, String.toList_inj.1 (by simp [parts])⟩
    rw [whole]
    exact .whole fun stem same => suffixed ⟨stem, same⟩

/-! ## The name that is found -/

/-- **The search ends at the least free number.** The numbers give different candidates. If there
are fewer names than numbers, the search from 2 on tries at most one candidate more than there are
names, and the numbered name for which it ends is the least that is free. -/
theorem freeName_by_search (name : String) (taken : List String) (limit : Nat)
    (fits : taken.toFinset.card + 2 < limit) :
    let stem := unitStem name
    let candidate := fun n => stem ++ "." ++ Nat.repr n ++ ".g.cs"
    IsStem name stem ∧ Function.Injective candidate ∧
      ∃ n tried, Search limit candidate taken 2 tried n ∧
        (∀ n' tried', Search limit candidate taken 2 tried' n' → n' = n ∧ tried' = tried) ∧
        tried ≤ taken.toFinset.card + 1 ∧ freeName name taken = candidate n ∧
        2 ≤ n ∧ candidate n ∉ taken ∧ ∀ m, 2 ≤ m → m < n → candidate m ∈ taken := by
  intro stem candidate
  have injective : Function.Injective candidate := numberedName_injective name
  obtain ⟨n, two, eq, free, least⟩ := freeName_eq_first name taken
  have bound : n ≤ 2 + taken.toFinset.card := le_add_card_of_taken injective least
  have search : Search limit candidate taken 2 (n - 2 + 1) n :=
    .of_least two (by omega) free least
  refine ⟨isStem_unitStem name, injective, n, n - 2 + 1, search, fun n' tried' other => ?_,
    by omega, eq, two, free, least⟩
  exact (search.unique other).symm

/-- The number 2 is taken twice, 3 is free and 4 is taken, and a numbered form of a numbered name is
none of the candidates. -/
theorem freeName_by_search_into_gap :
    let taken := ["Foo.g.cs", "Foo.2.g.cs", "Foo.2.2.g.cs", "Foo.4.g.cs", "Foo.2.g.cs"]
    let candidate := fun n => "Foo" ++ "." ++ Nat.repr n ++ ".g.cs"
    taken.toFinset.card + 2 < 2 ^ 64 ∧ Search (2 ^ 64) candidate taken 2 2 3 ∧
      freeName "Foo.g.cs" taken = "Foo.3.g.cs" := by
  intro taken candidate
  have fits : taken.toFinset.card + 2 < 2 ^ 64 := by decide
  have search : Search (2 ^ 64) candidate taken 2 2 3 :=
    .next (by decide) (by decide) (.free (by decide))
  have stem : unitStem "Foo.g.cs" = "Foo" := by decide
  obtain ⟨-, -, n, tried, -, only, -, name, -⟩ :=
    freeName_by_search "Foo.g.cs" taken (2 ^ 64) fits
  rw [stem] at only name
  obtain ⟨rfl, -⟩ := only 3 2 search
  exact ⟨fits, search, name.trans (by decide)⟩

end HierarchyAccessors
