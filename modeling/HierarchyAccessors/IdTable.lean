import HierarchyAccessors.Entries
import HierarchyAccessors.Symbols

/-!
# Tables keyed by node id

A table lists its entries in strictly increasing order of their ids, so equal tables have equal
lists. Putting an entry into a table replaces the entry of the same id, if there is one, and
touches no other (`find?_insert`).
-/

namespace HierarchyAccessors

/-- Values keyed by node id. -/
structure IdTable (α : Type) where
  entries : List (NodeId × α)
  sorted : entries.Pairwise (·.1 < ·.1)

namespace IdTable

variable {α : Type}

def empty : IdTable α := ⟨[], .nil⟩

/-- The entries with one more, in its place. -/
def insertEntry (id : NodeId) (a : α) : List (NodeId × α) → List (NodeId × α)
  | [] => [(id, a)]
  | (k, b) :: rest =>
    if id < k then (id, a) :: (k, b) :: rest
    else if id = k then (id, a) :: rest
    else (k, b) :: insertEntry id a rest

theorem mem_insertEntry {id : NodeId} {a : α} {entries : List (NodeId × α)} {e : NodeId × α}
    (h : e ∈ insertEntry id a entries) : e = (id, a) ∨ e ∈ entries := by
  induction entries with
  | nil => simpa [insertEntry] using h
  | cons x xs ih =>
    unfold insertEntry at h
    split at h
    · simpa using h
    · split at h <;> grind

theorem pairwise_insertEntry (id : NodeId) (a : α) {entries : List (NodeId × α)}
    (h : entries.Pairwise (·.1 < ·.1)) : (insertEntry id a entries).Pairwise (·.1 < ·.1) := by
  induction entries with
  | nil => simp [insertEntry]
  | cons x xs ih =>
    obtain ⟨hx, hxs⟩ := List.pairwise_cons.1 h
    unfold insertEntry
    split
    · next hlt =>
      refine List.pairwise_cons.2 ⟨fun e he => ?_, h⟩
      rcases List.mem_cons.1 he with rfl | he
      · exact hlt
      · exact UInt32.lt_trans hlt (hx e he)
    · split
      · next heq => exact List.pairwise_cons.2 ⟨fun e he => by simpa [heq] using hx e he, hxs⟩
      · next hlt hne =>
        refine List.pairwise_cons.2 ⟨fun e he => ?_, ih hxs⟩
        rcases mem_insertEntry he with rfl | he
        · exact UInt32.lt_of_le_of_ne (UInt32.not_lt.1 hlt) (Ne.symm hne)
        · exact hx e he

/-- The table with an entry put in, in place of an entry of the same id. -/
def insert (table : IdTable α) (id : NodeId) (a : α) : IdTable α :=
  ⟨insertEntry id a table.entries, pairwise_insertEntry id a table.sorted⟩

/-- The value under an id. -/
def find? (table : IdTable α) (id : NodeId) : Option α :=
  table.entries.lookup id

theorem lookup_insertEntry (id : NodeId) (a : α) (entries : List (NodeId × α)) (i : NodeId) :
    (insertEntry id a entries).lookup i = if i = id then some a else entries.lookup i := by
  induction entries with
  | nil => simp [insertEntry, Entries.lookup_cons]
  | cons x xs ih =>
    unfold insertEntry
    grind [Entries.lookup_cons]

theorem find?_insert (table : IdTable α) (id : NodeId) (a : α) (i : NodeId) :
    (table.insert id a).find? i = if i = id then some a else table.find? i :=
  lookup_insertEntry id a table.entries i

/-- Puts the entries in one after the other. -/
def ofList (entries : List (NodeId × α)) : IdTable α :=
  entries.foldl (fun table e => table.insert e.1 e.2) empty

end IdTable

end HierarchyAccessors
