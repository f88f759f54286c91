import HierarchyAccessors.AccessorName

/-!
# The name of an accessor, letter by letter

The first lowercase letter of a field name is found together with its place in bytes, and what
stands behind it is cut off there. Characters have different widths, so the place must be one
between two characters, inside the name.

**Theorem (`ofField_by_letters`).** A name without a lowercase letter gives the fallback. Any other
name is split at the first one, whose upper case comes first if it is a single character; the rest
follows as it is. The cut always falls between two characters.
-/

namespace HierarchyAccessors

/-- A lowercase letter is a single UTF-16 code unit, is lowercase, and is in none of the ranges of
signs. -/
structure IsLowercaseLetter (c : Char) : Prop where
  single : c.toNat ≤ 0xFFFF
  lowercase : Text.isLowercase c
  no_sign : ∀ range ∈ lowercaseSigns, ¬(range.1 ≤ c.toNat ∧ c.toNat ≤ range.2)

theorem isLowerLetter_iff {c : Char} : isLowerLetter c = true ↔ IsLowercaseLetter c := by
  have sign : Text.inRanges lowercaseSigns c = false ↔
      ∀ range ∈ lowercaseSigns, ¬(range.1 ≤ c.toNat ∧ c.toNat ≤ range.2) := by
    rw [← Bool.not_eq_true, Text.inRanges_iff]
    simp
  simp only [isLowerLetter, Bool.and_eq_true, decide_eq_true_eq, Bool.not_eq_true', sign]
  constructor
  · rintro ⟨⟨single, lowercase⟩, no_sign⟩
    exact ⟨Nat.le_of_lt_succ single, lowercase, no_sign⟩
  · rintro ⟨single, lowercase, no_sign⟩
    exact ⟨⟨Nat.lt_succ_of_le single, lowercase⟩, no_sign⟩

theorem isLowerLetter_eq_false_iff {c : Char} :
    isLowerLetter c = false ↔ ¬IsLowercaseLetter c := by
  rw [← isLowerLetter_iff, Bool.not_eq_true]

/-- The character that stands for `c` in upper case: a single upper case, or else `c` itself. -/
inductive Text.IsUpperCase (c : Char) : Char → Prop
  | single {u : Char} (h : upperCases c = [u]) : IsUpperCase c u
  | kept (h : ∀ u, upperCases c ≠ [u]) : IsUpperCase c c

theorem Text.isUpperCase_upperCase (c : Char) : IsUpperCase c (upperCase c) := by
  unfold upperCase
  split
  · next u single => exact .single single
  · next several => exact .kept several

theorem utf8ByteSize_append_singleton (s : String) (c : Char) :
    (s ++ String.singleton c).utf8ByteSize = s.utf8ByteSize + c.utf8Size := by
  rw [String.utf8ByteSize_append, String.utf8ByteSize_singleton]

namespace AccessorName

/-- The name is split at its first lowercase letter. -/
structure Splits (field before : String) (letter : Char) (later : String) : Prop where
  parts : field = before ++ String.singleton letter ++ later
  first : ∀ c ∈ before.toList, ¬IsLowercaseLetter c
  lowercase : IsLowercaseLetter letter

namespace Splits

variable {field before later : String} {letter : Char}

theorem toList_eq (h : Splits field before letter later) :
    field.toList = before.toList ++ letter :: later.toList := by
  simp [h.parts]

theorem firstLetter?_eq (h : Splits field before letter later) :
    firstLetter? field = some (before.utf8ByteSize, letter) := by
  rw [← Text.byteLength_toList]
  exact firstLetter?_of_split h.toList_eq
    (fun c mem => isLowerLetter_eq_false_iff.2 (h.first c mem)) (isLowerLetter_iff.2 h.lowercase)

theorem ofField_eq (h : Splits field before letter later) :
    ofField field = derived (String.singleton (Text.upperCase letter) ++ later) := by
  rw [ofField_of_split h.toList_eq
    (fun c mem => isLowerLetter_eq_false_iff.2 (h.first c mem)) (isLowerLetter_iff.2 h.lowercase),
    String.ofList_cons, String.ofList_toList]

/-- The first bytes are those of whole characters. -/
theorem isValid (h : Splits field before letter later) :
    (String.Pos.Raw.mk (before.utf8ByteSize + letter.utf8Size)).IsValid field := by
  rw [String.Pos.Raw.isValid_iff_exists_append]
  exact ⟨_, later, h.parts, by rw [← utf8ByteSize_append_singleton]; rfl⟩

theorem fromByte?_eq (h : Splits field before letter later) :
    Text.fromByte? field.toList (before.utf8ByteSize + letter.utf8Size) = some later.toList := by
  rw [← utf8ByteSize_append_singleton, ← Text.byteLength_toList, h.parts, String.toList_append,
    Text.fromByte?_append]

end Splits

theorem exists_splits {field : String} (h : ∃ c ∈ field.toList, IsLowercaseLetter c) :
    ∃ before letter later, Splits field before letter later := by
  obtain none | ⟨before, letter, later, split, others, lowercase⟩ := split_cases field
  · obtain ⟨c, mem, lowercase⟩ := h
    exact absurd lowercase (isLowerLetter_eq_false_iff.1 (none c mem))
  · refine ⟨String.ofList before, letter, String.ofList later, ?_, ?_,
      isLowerLetter_iff.1 lowercase⟩
    · rw [← String.toList_inj, split]
      simp
    · rw [String.toList_ofList]
      exact fun c mem => isLowerLetter_eq_false_iff.1 (others c mem)

/-- **What a field name gives.** It gives the fallback just if it has no lowercase letter. If it has
one, the name is split at the first: its upper case, where that is a single character, is followed
by what stands behind. The bytes that are counted to find that are those of whole characters, at
most all of the name, so nothing is lost where it is cut. -/
theorem ofField_by_letters (field : String) :
    (ofField field = fallback ↔ ∀ c ∈ field.toList, ¬IsLowercaseLetter c) ∧
    ((∃ c ∈ field.toList, IsLowercaseLetter c) →
      ∃ before letter later, Splits field before letter later) ∧
    ∀ before letter later, Splits field before letter later →
      (∃ u, Text.IsUpperCase letter u ∧ ofField field = derived (String.singleton u ++ later)) ∧
      firstLetter? field = some (before.utf8ByteSize, letter) ∧
        before.utf8ByteSize ≤ field.utf8ByteSize ∧
        (String.Pos.Raw.mk (before.utf8ByteSize + letter.utf8Size)).IsValid field ∧
        Text.fromByte? field.toList (before.utf8ByteSize + letter.utf8Size) =
          some later.toList := by
  refine ⟨⟨fun gives c mem lowercase => ?_, fun none => ?_⟩, exists_splits,
    fun before letter later h => ⟨?_, ?_⟩⟩
  · obtain ⟨before, letter, later, h⟩ := exists_splits ⟨c, mem, lowercase⟩
    rw [h.ofField_eq] at gives
    exact AccessorName.noConfusion gives
  · exact ofField_eq_fallback fun c mem => isLowerLetter_eq_false_iff.2 (none c mem)
  · exact ⟨_, Text.isUpperCase_upperCase letter, h.ofField_eq⟩
  · have inside : before.utf8ByteSize ≤ field.utf8ByteSize := by
      rw [h.parts, String.utf8ByteSize_append, String.utf8ByteSize_append]
      omega
    exact ⟨h.firstLetter?_eq, inside, h.isValid, h.fromByte?_eq⟩

example : ofField "_myHealth" = derived "MyHealth" := by decide +kernel

/-- A modifier letter and a letter of two UTF-16 code units are passed over, and the upper case of
the letter found would be two characters. -/
theorem ofField_by_letters_of_sharp_s :
    Splits "ʰ𝐚ßize" "ʰ𝐚" 'ß' "ize" ∧ ofField "ʰ𝐚ßize" = derived "ßize" ∧
      firstLetter? "ʰ𝐚ßize" = some (6, 'ß') ∧ (String.Pos.Raw.mk 8).IsValid "ʰ𝐚ßize" ∧
      Text.fromByte? "ʰ𝐚ßize".toList 8 = some "ize".toList := by
  have splits : Splits "ʰ𝐚ßize" "ʰ𝐚" 'ß' "ize" := by
    refine ⟨by decide, ?_, isLowerLetter_iff.1 (by decide)⟩
    have chars : "ʰ𝐚".toList = ['ʰ', '𝐚'] := by decide
    simp only [chars, List.forall_mem_cons, ← isLowerLetter_eq_false_iff]
    exact ⟨by decide, by decide, by simp⟩
  obtain ⟨⟨u, upper, gives⟩, index, -, valid, cut⟩ :=
    (ofField_by_letters "ʰ𝐚ßize").2.2 _ _ _ splits
  have several : Text.upperCases 'ß' = ['S', 'S'] := by decide
  have kept : u = 'ß' := by
    cases upper with
    | single alone => simp [several] at alone
    | kept => rfl
  exact ⟨splits, by rw [gives, kept]; decide, index, valid, cut⟩

end AccessorName

end HierarchyAccessors
