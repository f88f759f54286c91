import Mathlib.Data.List.Lex
import Mathlib.Data.List.Nodup

/-!
# Places

What stands in a structure that nests is found by its place: the numbers that lead there, from the
outside in. Places are ordered as words are in a dictionary. A list is in order (`InOrder`) if it
has what is held at all places, each place once and the places increasing; such lists are put
together as the structure is (`InOrder.cons`, `inOrder_flatMap`).
-/

namespace HierarchyAccessors

/-- The numbers that lead to a node, from the outside in. -/
abbrev Place := List Nat

/-! ## Lists in the order of places -/

section Listing

variable {α β : Type} {holds holds' : Place → β → Prop} {bs cs : List β}

/-- The list has what is held, in the order of the places and each place once. -/
structure Lists (holds : Place → β → Prop) (listing : List (Place × β)) : Prop where
  sorted : listing.Pairwise (·.1 < ·.1)
  mem_iff : ∀ place b, (place, b) ∈ listing ↔ holds place b

/-- The values are those that are held, in the order of their places. -/
def InOrder (holds : Place → β → Prop) (bs : List β) : Prop :=
  ∃ listing, Lists holds listing ∧ listing.map (·.2) = bs

theorem InOrder.congr (h : InOrder holds bs) (same : ∀ place b, holds place b ↔ holds' place b) :
    InOrder holds' bs := by
  obtain ⟨listing, lists, rfl⟩ := h
  exact ⟨listing, ⟨lists.sorted, fun place b => (lists.mem_iff place b).trans (same place b)⟩, rfl⟩

/-- A place holds one value. -/
theorem InOrder.eq_of_holds (h : InOrder holds bs) {place : Place} {b b' : β}
    (held : holds place b) (held' : holds place b') : b = b' := by
  obtain ⟨listing, lists, -⟩ := h
  have once : (listing.map (·.1)).Nodup := List.pairwise_map.2 (lists.sorted.imp ne_of_lt)
  have same := List.inj_on_of_nodup_map once ((lists.mem_iff _ _).2 held)
    ((lists.mem_iff _ _).2 held') rfl
  exact congrArg Prod.snd same

theorem inOrder_nil (nothing : ∀ place b, ¬holds place b) : InOrder holds [] :=
  ⟨[], ⟨.nil, fun place b => iff_of_false List.not_mem_nil (nothing place b)⟩, rfl⟩

theorem inOrder_singleton (b : β) : InOrder (fun place b' => place = [] ∧ b' = b) [b] :=
  ⟨[([], b)], ⟨List.pairwise_singleton _ _, fun place b' => by simp⟩, rfl⟩

/-- The places are moved one level further in. -/
theorem InOrder.under (h : InOrder holds bs) (i : Nat) :
    InOrder (fun place b => ∃ inner, place = i :: inner ∧ holds inner b) bs := by
  obtain ⟨listing, lists, rfl⟩ := h
  refine ⟨listing.map fun (place, b) => (i :: place, b), ⟨?sorted, ?mem⟩, ?values⟩
  case sorted =>
    refine List.pairwise_map.2 (lists.sorted.imp fun lt => ?_)
    exact List.cons_lt_cons_iff.2 (.inr ⟨rfl, lt⟩)
  case mem =>
    intro place b
    simp only [List.mem_map, Prod.exists, Prod.mk.injEq, lists.mem_iff]
    constructor
    · rintro ⟨inner, _, held, rfl, rfl⟩
      exact ⟨inner, rfl, held⟩
    · rintro ⟨inner, rfl, held⟩
      exact ⟨inner, b, held, rfl, rfl⟩
  case values =>
    rw [List.map_map]
    rfl

/-- What is left out keeps the others in order. -/
theorem InOrder.filterMap {γ : Type} (h : InOrder holds bs) (f : β → Option γ) :
    InOrder (fun place c => ∃ b, holds place b ∧ f b = some c) (bs.filterMap f) := by
  obtain ⟨listing, lists, rfl⟩ := h
  refine ⟨listing.filterMap fun (place, b) => (f b).map (place, ·), ⟨?sorted, ?mem⟩, ?values⟩
  case sorted =>
    refine List.pairwise_filterMap.2 (lists.sorted.imp fun {x y} lt x' hx y' hy => ?_)
    obtain ⟨c, -, rfl⟩ := Option.map_eq_some_iff.1 hx
    obtain ⟨d, -, rfl⟩ := Option.map_eq_some_iff.1 hy
    exact lt
  case mem =>
    intro place c
    simp only [List.mem_filterMap, Prod.exists, Option.map_eq_some_iff, Prod.mk.injEq,
      lists.mem_iff]
    constructor
    · rintro ⟨_, b, held, _, value, rfl, rfl⟩
      exact ⟨b, held, value⟩
    · rintro ⟨b, held, value⟩
      exact ⟨place, b, held, c, value, rfl, rfl⟩
  case values =>
    rw [List.map_filterMap, List.filterMap_map]
    congr 1
    funext e
    rw [Option.map_map, Function.comp_apply]
    exact Option.map_id'

theorem InOrder.append (h : InOrder holds bs) (h' : InOrder holds' cs)
    (before : ∀ place b place' b', holds place b → holds' place' b' → place < place') :
    InOrder (fun place b => holds place b ∨ holds' place b) (bs ++ cs) := by
  obtain ⟨listing, lists, rfl⟩ := h
  obtain ⟨listing', lists', rfl⟩ := h'
  refine ⟨listing ++ listing', ⟨?_, fun place b => ?_⟩, List.map_append⟩
  · refine List.pairwise_append.2 ⟨lists.sorted, lists'.sorted, fun x hx y hy => ?_⟩
    exact before _ _ _ _ ((lists.mem_iff x.1 x.2).1 hx) ((lists'.mem_iff y.1 y.2).1 hy)
  · rw [List.mem_append, lists.mem_iff, lists'.mem_iff]

theorem InOrder.map {γ : Type} (h : InOrder holds bs) (f : β → γ) :
    InOrder (fun place c => ∃ b, holds place b ∧ c = f b) (bs.map f) := by
  obtain ⟨listing, lists, rfl⟩ := h
  refine ⟨listing.map fun (place, b) => (place, f b), ⟨?_, fun place c => ?_⟩, ?_⟩
  · exact List.pairwise_map.2 lists.sorted
  · simp only [List.mem_map, Prod.exists, Prod.mk.injEq, lists.mem_iff]
    constructor
    · rintro ⟨_, b, held, rfl, rfl⟩
      exact ⟨b, held, rfl⟩
    · rintro ⟨b, held, rfl⟩
      exact ⟨place, b, held, rfl, rfl⟩
  · rw [List.map_map, List.map_map]
    rfl

/-- What the items of a list hold, where the items are numbered from `first` on. -/
def HeldAmong (holds : α → Place → β → Prop) (first : Nat) (as : List α) (place : Place) (b : β) :
    Prop :=
  ∃ i a inner, as[i]? = some a ∧ place = (first + i) :: inner ∧ holds a inner b

theorem heldAmong_zero_iff {holds : α → Place → β → Prop} {as : List α} {place : Place} {b : β} :
    HeldAmong holds 0 as place b ↔
      ∃ i a inner, as[i]? = some a ∧ place = i :: inner ∧ holds a inner b := by
  simp only [HeldAmong, Nat.zero_add]

theorem not_heldAmong_nil {holds : α → Place → β → Prop} {first : Nat} (place : Place) (b : β) :
    ¬HeldAmong holds first [] place b := by
  rintro ⟨i, a, inner, found, -⟩
  simp at found

theorem InOrder.cons {holds : α → Place → β → Prop} {a : α} {as : List α} {first : Nat}
    (h : InOrder (holds a) bs) (h' : InOrder (HeldAmong holds (first + 1) as) cs) :
    InOrder (HeldAmong holds first (a :: as)) (bs ++ cs) := by
  refine ((h.under first).append h' ?_).congr fun place b => ?_
  · rintro _ b _ b' ⟨inner, rfl, -⟩ ⟨i, a, inner', -, rfl, -⟩
    exact List.cons_lt_cons_iff.2 (.inl (by omega))
  · have later (i : Nat) : first + 1 + i = first + (i + 1) := by omega
    constructor
    · rintro (⟨inner, rfl, held⟩ | ⟨i, a', inner, found, rfl, held⟩)
      · exact ⟨0, a, inner, rfl, rfl, held⟩
      · exact ⟨i + 1, a', inner, found, by rw [later], held⟩
    · rintro ⟨i, a', inner, found, rfl, held⟩
      cases i with
      | zero =>
        cases found
        exact .inl ⟨inner, rfl, held⟩
      | succ i => exact .inr ⟨i, a', inner, found, by rw [later], held⟩

theorem inOrder_flatMap {holds : α → Place → β → Prop} {values : α → List β}
    (h : ∀ a, InOrder (holds a) (values a)) (first : Nat) (as : List α) :
    InOrder (HeldAmong holds first as) (as.flatMap values) := by
  induction as generalizing first with
  | nil => exact inOrder_nil not_heldAmong_nil
  | cons a as ih => exact (h a).cons (ih (first + 1))

end Listing

end HierarchyAccessors
