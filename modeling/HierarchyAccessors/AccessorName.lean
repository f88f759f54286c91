import HierarchyAccessors.Text.Lowercase
import HierarchyAccessors.Text.Offsets
import HierarchyAccessors.Text.Ranges

/-!
# Names of accessors

An accessor is named after its backing field: everything before the first lowercase letter is
dropped and that letter is put in upper case, so `_myHealth` becomes `MyHealth`. A field name
without a lowercase letter gives the fallback name.
-/

namespace HierarchyAccessors

/-- The name of an accessor whose field name has no lowercase letter. -/
def fallbackName : String := "NoLetterCanUppercase"

/-- Lowercase characters that are no letters: ordinal indicators, modifier letters, small roman
numerals and circled letters. -/
def lowercaseSigns : List (Nat × Nat) :=
  [(0xAA, 0xAA), (0xBA, 0xBA), (0x2B0, 0x2B8), (0x2C0, 0x2C1), (0x2E0, 0x2E4), (0x345, 0x345),
   (0x37A, 0x37A), (0x10FC, 0x10FC), (0x1D2C, 0x1D6A), (0x1D78, 0x1D78), (0x1D9B, 0x1DBF),
   (0x2071, 0x2071), (0x207F, 0x207F), (0x2090, 0x209C), (0x2170, 0x217F), (0x24D0, 0x24E9),
   (0x2C7C, 0x2C7D), (0xA69C, 0xA69D), (0xA770, 0xA770), (0xA7F2, 0xA7F4), (0xA7F8, 0xA7F9),
   (0xAB5C, 0xAB5F), (0xAB69, 0xAB69)]

/-- Whether `c` is a lowercase letter of a single UTF-16 code unit. -/
def isLowerLetter (c : Char) : Bool :=
  c.toNat < 0x10000 && Text.isLowercase c && !Text.inRanges lowercaseSigns c

/-- The name of an accessor, which remembers whether the fallback had to be used. -/
inductive AccessorName
  | derived (name : String)
  | fallback
deriving DecidableEq

namespace AccessorName

/-- The identifier. -/
def text : AccessorName → String
  | derived name => name
  | fallback => fallbackName

def isFallback : AccessorName → Bool
  | derived _ => false
  | fallback => true

/-- The first lowercase letter of a text, with the number of bytes before it. -/
def firstLetter? (field : String) : Option (Nat × Char) :=
  (Text.withOffsets 0 field.toList).find? (isLowerLetter ·.2)

/-- The name of the accessor for the field with the given name. The text behind the first lowercase
letter is found by its place in bytes. -/
def ofField (field : String) : AccessorName :=
  match firstLetter? field with
  | none => fallback
  | some (index, first) =>
    let rest := (Text.fromByte? field.toList (index + first.utf8Size)).getD []
    derived (String.ofList (Text.upperCase first :: rest))

/-- A name has no lowercase letter, or it is split at the first one. -/
theorem split_cases (field : String) :
    (∀ c ∈ field.toList, isLowerLetter c = false) ∨
      ∃ before c later, field.toList = before ++ c :: later ∧
        (∀ d ∈ before, isLowerLetter d = false) ∧ isLowerLetter c = true := by
  cases found : field.toList.find? isLowerLetter with
  | none => exact .inl fun c mem => by simpa using List.find?_eq_none.1 found c mem
  | some c =>
    obtain ⟨letter, before, later, split, others⟩ := List.find?_eq_some_iff_append.1 found
    exact .inr ⟨before, c, later, split, fun d mem => by simpa using others d mem, letter⟩

theorem find?_withOffsets_eq_none {start : Nat} {cs : List Char}
    (others : ∀ c ∈ cs, isLowerLetter c = false) :
    (Text.withOffsets start cs).find? (isLowerLetter ·.2) = none := by
  rw [List.find?_eq_none]
  intro entry mem
  have listed : entry.2 ∈ (Text.withOffsets start cs).map (·.2) := List.mem_map_of_mem mem
  rw [Text.map_snd_withOffsets] at listed
  simp [others _ listed]

/-- The bytes before the first letter are those of the characters before it. -/
theorem firstLetter?_of_split {field : String} {before later : List Char} {c : Char}
    (split : field.toList = before ++ c :: later) (others : ∀ d ∈ before, isLowerLetter d = false)
    (letter : isLowerLetter c = true) : firstLetter? field = some (Text.byteLength before, c) := by
  rw [firstLetter?, split, Text.withOffsets_append, Text.withOffsets, Nat.zero_add,
    List.find?_append, find?_withOffsets_eq_none others, Option.none_or]
  exact List.find?_cons_of_pos letter

theorem ofField_eq_fallback {field : String}
    (others : ∀ c ∈ field.toList, isLowerLetter c = false) : ofField field = fallback := by
  rw [ofField, firstLetter?, find?_withOffsets_eq_none others]

theorem ofField_of_split {field : String} {before later : List Char} {c : Char}
    (split : field.toList = before ++ c :: later) (others : ∀ d ∈ before, isLowerLetter d = false)
    (letter : isLowerLetter c = true) :
    ofField field = derived (String.ofList (Text.upperCase c :: later)) := by
  have cut : field.toList = before ++ [c] ++ later := by simp [split]
  rw [ofField, firstLetter?_of_split split others letter]
  simp only [cut, ← Text.byteLength_append_singleton, Text.fromByte?_append, Option.getD_some]

end AccessorName

end HierarchyAccessors
