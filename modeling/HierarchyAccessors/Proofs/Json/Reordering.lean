import HierarchyAccessors.Proofs.Json.Accepted
import Mathlib.Data.List.Forall2

/-!
# The order of the entries of objects

`Reordered` relates a tree to the trees that differ from it in the order of entries alone, in
objects at any depth; entries with equal keys keep their order (`Shuffled`). Every such change of
order is made by interchanging neighbours with different keys (`Shuffled.interchanged`), so that a
reader which goes through the entries one after the other need only be looked at for two of them.

Order is no matter for a value that is passed over (`Reordered.whole`) and none for a value that is
read as a whole (`Reordered.strictFault?_eq_none`).
-/

namespace HierarchyAccessors.Json

/-! ## Lists in another order -/

section Shuffled

variable {κ α : Type}

/-- One list is made of the other by interchanging neighbours with different keys. -/
inductive Interchanged : List (κ × α) → List (κ × α) → Prop
  | refl (es : List (κ × α)) : Interchanged es es
  | cons (e : κ × α) {es es' : List (κ × α)} (rest : Interchanged es es') :
      Interchanged (e :: es) (e :: es')
  | swap {d e : κ × α} (ne : d.1 ≠ e.1) (es : List (κ × α)) :
      Interchanged (d :: e :: es) (e :: d :: es)
  | trans {es mid es' : List (κ × α)} (first : Interchanged es mid)
      (second : Interchanged mid es') : Interchanged es es'

theorem Interchanged.perm {es es' : List (κ × α)} (h : Interchanged es es') : es.Perm es' := by
  induction h with
  | refl es => exact .refl es
  | cons e _ ih => exact ih.cons e
  | swap _ es => exact .swap _ _ es
  | trans _ _ ih₁ ih₂ => exact ih₁.trans ih₂

/-- An entry goes to the front past entries with other keys. -/
theorem interchanged_front {before : List (κ × α)} {e : κ × α} (ne : ∀ d ∈ before, d.1 ≠ e.1)
    (after : List (κ × α)) : Interchanged (before ++ e :: after) (e :: (before ++ after)) := by
  induction before with
  | nil => exact .refl _
  | cons d before ih =>
    obtain ⟨first, more⟩ := List.forall_mem_cons.1 ne
    exact .trans (.cons d (ih more)) (.swap first _)

variable [DecidableEq κ]

/-- The same entries in another order, in which entries with equal keys keep theirs. -/
def Shuffled (es es' : List (κ × α)) : Prop :=
  ∀ key : κ, es.filter (·.1 = key) = es'.filter (·.1 = key)

theorem Shuffled.interchanged {es es' : List (κ × α)} (h : Shuffled es es') :
    Interchanged es es' := by
  induction es' generalizing es with
  | nil =>
    cases es with
    | nil => exact .refl []
    | cons e es =>
      have := h e.1
      simp at this
  | cons e es' ih =>
    have front := h e.1
    rw [List.filter_cons_of_pos (by simp)] at front
    obtain ⟨before, after, rfl, ne, -, -⟩ := List.filter_eq_cons_iff.1 front
    simp only [decide_eq_true_eq] at ne
    refine .trans (interchanged_front ne after) (.cons e (ih fun key => ?_))
    have same := h key
    by_cases hk : e.1 = key
    · subst hk
      have gone : before.filter (·.1 = e.1) = [] := by simpa using ne
      simpa [List.filter_append, gone] using same
    · simpa [List.filter_append, List.filter_cons, hk] using same

theorem Interchanged.shuffled {es es' : List (κ × α)} (h : Interchanged es es') :
    Shuffled es es' := by
  intro key
  induction h with
  | refl => rfl
  | cons e _ ih => simp only [List.filter_cons, ih]
  | @swap d e ne es =>
    by_cases hd : d.1 = key
    · have he : e.1 ≠ key := fun he => ne (hd.trans he.symm)
      simp [hd, he]
    · simp [List.filter_cons, hd]
  | trans _ _ ih₁ ih₂ => exact ih₁.trans ih₂

/-- Entries that are chosen by their keys are in another order too. -/
theorem Shuffled.filter {es es' : List (κ × α)} (h : Shuffled es es') (p : κ → Bool) :
    Shuffled (es.filter (p ·.1)) (es'.filter (p ·.1)) := by
  intro key
  have same := congrArg (List.filter (p ·.1)) (h key)
  rwa [List.filter_comm, List.filter_comm (l := es')] at same

theorem Shuffled.eq_singleton {e : κ × α} {es : List (κ × α)} (h : Shuffled [e] es) :
    es = [e] :=
  (List.singleton_perm.1 h.interchanged.perm).symm ▸ rfl

end Shuffled

/-! ## Trees in another order -/

mutual

/-- The second tree is the first, with the entries of its objects in another order. -/
inductive Reordered : Tree → Tree → Prop
  | null : Reordered .null .null
  | bool (b : Bool) : Reordered (.bool b) (.bool b)
  | number (n : Numeral) : Reordered (.number n) (.number n)
  | string (q : Quoted) : Reordered (.string q) (.string q)
  | array {items items' : List Tree} (each : List.Forall₂ Reordered items items') :
      Reordered (.array items .closed) (.array items' .closed)
  | object {entries mid entries' : List (Quoted × Tree)}
      (each : List.Forall₂ EntryReordered entries mid) (shuffled : Shuffled mid entries') :
      Reordered (.object entries .closed) (.object entries' .closed)

/-- The entries have the same key, and the value is reordered. -/
inductive EntryReordered : Quoted × Tree → Quoted × Tree → Prop
  | value (raw : List Char) {t t' : Tree} (value : Reordered t t') :
      EntryReordered (.closed raw, t) (.closed raw, t')

end

/-- The second text says the same as the first with other white space between the tokens, and with
the entries of objects in another order. -/
def Rewritten (text text' : String) : Prop :=
  ∃ t t' : Tree, t.SpelledBy text ∧ Reordered t t' ∧ t'.SpelledBy text'

namespace Reordered

theorem exists_item {ts ts' : List Tree} (each : List.Forall₂ Reordered ts ts') {t' : Tree}
    (mem : t' ∈ ts') : ∃ t ∈ ts, Reordered t t' := by
  induction each with
  | nil => cases mem
  | cons first _ ih =>
    rcases List.mem_cons.1 mem with rfl | mem
    · exact ⟨_, List.mem_cons_self, first⟩
    · obtain ⟨t, ht, same⟩ := ih mem
      exact ⟨t, List.mem_cons_of_mem _ ht, same⟩

/-- Every entry of the second object is one of the first, with its value reordered. -/
theorem exists_entry {es mid es' : List (Quoted × Tree)}
    (each : List.Forall₂ EntryReordered es mid) (shuffled : Shuffled mid es') {e' : Quoted × Tree}
    (mem : e' ∈ es') : ∃ e ∈ es, e.1 = e'.1 ∧ Reordered e.2 e'.2 := by
  replace mem := shuffled.interchanged.perm.mem_iff.2 mem
  clear shuffled
  induction each with
  | nil => cases mem
  | cons first _ ih =>
    rcases List.mem_cons.1 mem with rfl | mem
    · obtain ⟨key, value⟩ := first
      exact ⟨_, List.mem_cons_self, rfl, value⟩
    · obtain ⟨e, he, same⟩ := ih mem
      exact ⟨e, List.mem_cons_of_mem _ he, same⟩

/-- No key is cut off by the end of the text. -/
theorem exists_closed_key {es mid : List (Quoted × Tree)}
    (each : List.Forall₂ EntryReordered es mid) : ∀ e ∈ mid, ∃ raw, e.1 = .closed raw := by
  induction each with
  | nil => simp
  | cons first _ ih =>
    obtain ⟨raw, -⟩ := first
    exact List.forall_mem_cons.2 ⟨⟨raw, rfl⟩, ih⟩

/-- By recursion on the tree: what is whole stays whole. -/
theorem whole : (t : Tree) → {t' : Tree} → t.Whole → Reordered t t' → t'.Whole
  | .null, _, _, .null | .bool _, _, _, .bool _ | .number _, _, _, .number _ => rfl
  | .string _, _, sound, .string _ => sound
  | .array items _, _, sound, .array each => by
    obtain ⟨wholes, -⟩ := Tree.whole_array_iff.1 sound
    refine Tree.whole_array_iff.2 ⟨fun u' mem => ?_, rfl⟩
    obtain ⟨u, hu, same⟩ := exists_item each mem
    exact whole u (wholes u hu) same
  | .object entries _, _, sound, .object each shuffled => by
    obtain ⟨wholes, -⟩ := Tree.whole_object_iff.1 sound
    refine Tree.whole_object_iff.2 ⟨fun e' mem => ?_, rfl⟩
    obtain ⟨e, he, key, same⟩ := exists_entry each shuffled mem
    exact ⟨key ▸ (wholes e he).1, whole e.2 (wholes e he).2 same⟩
termination_by t => sizeOf t
decreasing_by
  · have := List.sizeOf_lt_of_mem hu
    simp
    omega
  · have := List.sizeOf_lt_of_mem he
    obtain ⟨key, value⟩ := e
    simp at this ⊢
    omega

/-- By recursion on the tree: nothing need be moved. -/
theorem refl : (t : Tree) → t.Whole → Reordered t t
  | .null, _ => .null
  | .bool b, _ => .bool b
  | .number n, _ => .number n
  | .string q, _ => .string q
  | .array items ending, whole => by
    obtain ⟨wholes, rfl⟩ := Tree.whole_array_iff.1 whole
    exact .array (List.forall₂_same.2 fun t ht => refl t (wholes t ht))
  | .object entries ending, whole => by
    obtain ⟨wholes, rfl⟩ := Tree.whole_object_iff.1 whole
    refine .object (List.forall₂_same.2 fun e he => ?_) fun _ => rfl
    obtain ⟨key, value⟩ := wholes e he
    obtain ⟨raw, closed⟩ := Quoted.exists_closed_of_whole key
    have same := EntryReordered.value raw (refl e.2 value)
    rwa [← closed] at same
  | .broken _ _, whole => absurd whole (Tree.not_whole_broken _ _)
  | .absent, whole => absurd whole Tree.not_whole_absent
termination_by t => sizeOf t
decreasing_by
  · have := List.sizeOf_lt_of_mem ht
    simp
    omega
  · have := List.sizeOf_lt_of_mem he
    obtain ⟨key, value⟩ := e
    simp at this ⊢
    omega

end Reordered

/-! ## Values read as a whole -/

namespace Tree

theorem strictItems?_eq_none_iff {depth : Nat} {ts : List Tree} :
    strictItems? depth ts = none ↔ ∀ t ∈ ts, t.strictFault? depth = none := by
  induction ts with
  | nil => simp [strictItems?]
  | cons t ts ih => simp [strictItems?, ih]

theorem strictEntries?_eq_none_iff {depth : Nat} {es : List (Quoted × Tree)} :
    strictEntries? depth es = none ↔
      ∀ e ∈ es, e.1.strictFault? = none ∧ e.2.strictFault? depth = none := by
  induction es with
  | nil => simp [strictEntries?]
  | cons e es ih => simp [strictEntries?, ih, and_assoc]

theorem strictFault?_array_eq_none_iff {depth : Nat} {ts : List Tree} {ending : Ending} :
    (array ts ending).strictFault? (depth + 1) = none ↔
      (∀ t ∈ ts, t.strictFault? depth = none) ∧ ending = .closed := by
  rw [strictFault?, Option.or_eq_none_iff, strictItems?_eq_none_iff, Ending.fault?_eq_none_iff]

theorem strictFault?_object_eq_none_iff {depth : Nat} {es : List (Quoted × Tree)}
    {ending : Ending} :
    (object es ending).strictFault? (depth + 1) = none ↔
      (∀ e ∈ es, e.1.strictFault? = none ∧ e.2.strictFault? depth = none) ∧ ending = .closed := by
  rw [strictFault?, Option.or_eq_none_iff, strictEntries?_eq_none_iff, Ending.fault?_eq_none_iff]

theorem check_eq_ok_iff {depth : Nat} {t : Tree} {u : Unit} :
    t.check depth = .ok u ↔ t.strictFault? depth = none := by
  rw [check]
  split <;> simp_all

theorem skip_eq_ok_iff {t : Tree} {u : Unit} : t.skip = .ok u ↔ t.Whole := by
  rw [skip, Whole]
  split <;> simp_all

end Tree

theorem Quoted.strictFault?_eq_none_iff {q : Quoted} :
    q.strictFault? = none ↔ ∃ s, q.decode = .ok s := by
  rw [strictFault?]
  split <;> simp_all

theorem Quoted.skipFault?_of_strictFault? {q : Quoted} (h : q.strictFault? = none) :
    q.skipFault? = none := by
  obtain ⟨s, read⟩ := strictFault?_eq_none_iff.1 h
  exact skipFault?_of_decode read

/-- What is read as a whole is whole. -/
theorem Tree.whole_of_strictFault? {depth : Nat} {t : Tree} (h : t.strictFault? depth = none) :
    t.Whole := by
  induction depth generalizing t with
  | zero =>
    cases t with
    | string q => exact Quoted.skipFault?_of_strictFault? h
    | null | bool | number => rfl
    | array | object | broken | absent => cases h
  | succ depth ih =>
    cases t with
    | string q => exact Quoted.skipFault?_of_strictFault? h
    | null | bool | number => rfl
    | array =>
      obtain ⟨each, closed⟩ := strictFault?_array_eq_none_iff.1 h
      exact whole_array_iff.2 ⟨fun t ht => ih (each t ht), closed⟩
    | object =>
      obtain ⟨each, closed⟩ := strictFault?_object_eq_none_iff.1 h
      exact whole_object_iff.2 ⟨fun e he =>
        ⟨Quoted.skipFault?_of_strictFault? (each e he).1, ih (each e he).2⟩, closed⟩
    | broken | absent => cases h

theorem Reordered.strictFault?_eq_none {depth : Nat} {t t' : Tree}
    (strict : t.strictFault? depth = none) (h : Reordered t t') :
    t'.strictFault? depth = none := by
  induction depth generalizing t t' with
  | zero =>
    cases h with
    | null | bool | number | string => exact strict
    | array | object => cases strict
  | succ depth ih =>
    cases h with
    | null | bool | number | string => exact strict
    | array each =>
      obtain ⟨items, -⟩ := Tree.strictFault?_array_eq_none_iff.1 strict
      refine Tree.strictFault?_array_eq_none_iff.2 ⟨fun u' mem => ?_, rfl⟩
      obtain ⟨u, hu, same⟩ := exists_item each mem
      exact ih (items u hu) same
    | object each shuffled =>
      obtain ⟨entries, -⟩ := Tree.strictFault?_object_eq_none_iff.1 strict
      refine Tree.strictFault?_object_eq_none_iff.2 ⟨fun e' mem => ?_, rfl⟩
      obtain ⟨e, he, key, same⟩ := exists_entry each shuffled mem
      exact ⟨key ▸ (entries e he).1, ih (entries e he).2 same⟩

end HierarchyAccessors.Json
