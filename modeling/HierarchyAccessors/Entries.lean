/-!
# Entries by key

A list of entries holds values under keys, and the first entry of a key counts. Putting a value
under a key changes the entry where it stands or adds one at the end (`lookup_put`), and taking a
key out removes all its entries (`lookup_drop`); neither touches any other key.
-/

namespace HierarchyAccessors.Entries

variable {κ α : Type} [BEq κ]

/-- The entries with a value put under a key. -/
def put (key : κ) (value : α) : List (κ × α) → List (κ × α)
  | [] => [(key, value)]
  | (k, v) :: rest => if k == key then (key, value) :: rest else (k, v) :: put key value rest

/-- The entries without those of a key. -/
def drop (key : κ) (entries : List (κ × α)) : List (κ × α) :=
  entries.filter (·.1 != key)

theorem lookup_cons (k : κ) (x : κ × α) (xs : List (κ × α)) :
    (x :: xs).lookup k = if k == x.1 then some x.2 else xs.lookup k := by
  rw [List.lookup_cons]
  cases k == x.1 <;> rfl

theorem lookup_put [LawfulBEq κ] (key : κ) (value : α) (entries : List (κ × α)) (k : κ) :
    (put key value entries).lookup k = if k == key then some value else entries.lookup k := by
  induction entries with
  | nil => simp [put, lookup_cons]
  | cons x xs ih =>
    unfold put
    by_cases h : x.1 = key
    · subst h
      simp only [BEq.rfl, if_true, lookup_cons]
      split <;> rfl
    · have hk : (x.1 == key) = false := beq_eq_false_iff_ne.2 h
      simp only [hk, Bool.false_eq_true, if_false, lookup_cons, ih]
      by_cases hx : k = x.1
      · simp [hx, hk]
      · simp [hx]

theorem lookup_drop [LawfulBEq κ] (key : κ) (entries : List (κ × α)) (k : κ) :
    (drop key entries).lookup k = if k == key then none else entries.lookup k := by
  induction entries with
  | nil => simp [drop]
  | cons x xs ih =>
    by_cases h : x.1 = key
    · have hx : drop key (x :: xs) = drop key xs := by simp [drop, h]
      rw [hx, ih, lookup_cons, h]
      split <;> rfl
    · have hx : drop key (x :: xs) = x :: drop key xs := by simp [drop, h]
      rw [hx, lookup_cons, lookup_cons, ih]
      by_cases hk : k = x.1
      · simp [hk, h]
      · simp [hk]

end HierarchyAccessors.Entries
