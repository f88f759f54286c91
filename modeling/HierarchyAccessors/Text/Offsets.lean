/-!
# Texts counted in bytes

A place in a text may be given by the number of UTF-8 bytes before it. It is a place of the text
only if it does not lie inside a character, so a cut there may have nothing to give: it has just if
the bytes before are those of some first characters (`fromByte?_eq_some_iff`).
-/

namespace HierarchyAccessors.Text

/-- The number of bytes of a text. -/
def byteLength : List Char → Nat
  | [] => 0
  | c :: cs => c.utf8Size + byteLength cs

@[simp] theorem byteLength_nil : byteLength [] = 0 := rfl

@[simp] theorem byteLength_cons (c : Char) (cs : List Char) :
    byteLength (c :: cs) = c.utf8Size + byteLength cs := rfl

theorem byteLength_append_singleton (cs : List Char) (c : Char) :
    byteLength (cs ++ [c]) = byteLength cs + c.utf8Size := by
  induction cs with
  | nil => simp
  | cons d cs ih => rw [List.cons_append, byteLength_cons, ih, byteLength_cons, Nat.add_assoc]

theorem byteLength_toList (s : String) : byteLength s.toList = s.utf8ByteSize := by
  obtain ⟨cs, rfl⟩ := s.exists_eq_ofList
  rw [String.toList_ofList]
  induction cs with
  | nil => rfl
  | cons c cs ih =>
    rw [byteLength_cons, ih, String.ofList_cons, String.utf8ByteSize_append,
      String.utf8ByteSize_singleton]

/-- The characters, each with the number of bytes before it. -/
def withOffsets : (start : Nat) → List Char → List (Nat × Char)
  | _, [] => []
  | start, c :: cs => (start, c) :: withOffsets (start + c.utf8Size) cs

theorem map_snd_withOffsets (start : Nat) (cs : List Char) :
    (withOffsets start cs).map (·.2) = cs := by
  induction cs generalizing start with
  | nil => rfl
  | cons c cs ih => rw [withOffsets, List.map_cons, ih]

theorem withOffsets_append (start : Nat) (cs ds : List Char) :
    withOffsets start (cs ++ ds) =
      withOffsets start cs ++ withOffsets (start + byteLength cs) ds := by
  induction cs generalizing start with
  | nil => rfl
  | cons c cs ih =>
    rw [List.cons_append, withOffsets, ih, withOffsets, List.cons_append, byteLength_cons,
      Nat.add_assoc]

/-- The text behind the given number of bytes, unless the cut is inside a character or behind the
end. -/
def fromByte? : List Char → (place : Nat) → Option (List Char)
  | cs, 0 => some cs
  | [], _ + 1 => none
  | c :: cs, place + 1 =>
    if c.utf8Size ≤ place + 1 then fromByte? cs (place + 1 - c.utf8Size) else none

theorem fromByte?_append (front rest : List Char) :
    fromByte? (front ++ rest) (byteLength front) = some rest := by
  induction front with
  | nil => rw [List.nil_append, byteLength_nil, fromByte?]
  | cons c front ih =>
    have positive := c.utf8Size_pos
    obtain ⟨place, length⟩ : ∃ place, c.utf8Size + byteLength front = place + 1 :=
      Nat.exists_eq_add_one.2 (by omega)
    have behind : place + 1 - c.utf8Size = byteLength front := by omega
    rw [List.cons_append, byteLength_cons, length, fromByte?, if_pos (by omega), behind, ih]

theorem fromByte?_eq_some_iff {cs rest : List Char} {place : Nat} :
    fromByte? cs place = some rest ↔ ∃ front, cs = front ++ rest ∧ byteLength front = place := by
  constructor
  · intro cut
    fun_induction fromByte? cs place with
    | case1 cs =>
      cases cut
      exact ⟨[], rfl, rfl⟩
    | case2 => simp at cut
    | case3 c cs place fits ih =>
      obtain ⟨front, rfl, length⟩ := ih cut
      exact ⟨c :: front, rfl, by rw [byteLength_cons, length]; omega⟩
    | case4 => simp at cut
  · rintro ⟨front, rfl, rfl⟩
    exact fromByte?_append front rest

end HierarchyAccessors.Text
