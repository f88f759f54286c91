import HierarchyAccessors.Proofs.UnitText

/-!
# The lines of a text, and what a unit's lines are made of

A text that ends every line with a line break can be taken apart again where no line has a break of
its own (`linesOf_textOf`). The lines of a unit have breaks and braces only where a name or a type
of the group has them: upper-casing a letter makes none (`upperCase_eq_of_layoutMark`), and neither
do the calls.
-/

namespace HierarchyAccessors

/-! ## Lines -/

/-- The lines of a text. What follows the last line break is a line as well. -/
def linesOf (text : String) : List String :=
  (text.toList.splitOn '\n').map String.ofList

theorem toList_textOf (lines : List String) :
    (textOf lines).toList = ['\n'].intercalate (lines.map (·.toList) ++ [[]]) := by
  induction lines with
  | nil => simp [textOf]
  | cons line lines ih =>
    rw [List.map_cons, List.cons_append, List.intercalate_cons_of_ne_nil (by simp), ← ih]
    simp [textOf]

/-- Lines without breaks of their own can be read back. -/
theorem linesOf_textOf {lines : List String} (h : ∀ line ∈ lines, '\n' ∉ line.toList) :
    linesOf (textOf lines) = lines ++ [""] := by
  have plain : ∀ line ∈ lines.map (·.toList) ++ [[]], '\n' ∉ line := by
    simpa [or_imp, forall_and] using h
  rw [linesOf, toList_textOf, List.splitOn_intercalate '\n' plain (by simp)]
  simp [Function.comp_def]

theorem IndentedText.newline_not_mem_indent {depth : Nat} {line : String}
    (h : '\n' ∉ line.toList) : '\n' ∉ (indent depth line).toList := by
  simpa [indent, indentation] using h

/-! ## Marks -/

/-- The characters that lay a unit out. -/
def layoutMarks : List Char := ['\n', '\x7b', '\x7d']

theorem toNat_of_layoutMark {c : Char} (h : c ∈ layoutMarks) :
    c.toNat = 0xA ∨ c.toNat = 0x7B ∨ c.toNat = 0x7D := by
  simp only [layoutMarks, List.mem_cons, List.not_mem_nil, or_false] at h
  rcases h with rfl | rfl | rfl <;> simp

namespace Text

/-- A number that is no code point stands for the character 0. -/
theorem toNat_ofNat_of_ne_zero {n : Nat} (h : (Char.ofNat n).toNat ≠ 0) :
    (Char.ofNat n).toNat = n := by
  unfold Char.ofNat at h ⊢
  by_cases valid : n.isValidChar
  · rw [dif_pos valid]
    rfl
  · rw [dif_neg valid] at h
    exact absurd rfl h

theorem bounds_of_contains {run : LetterRun} {code : Nat} (h : run.contains code = true) :
    run.first ≤ code ∧ code ≤ run.last := by
  simp only [LetterRun.contains, Bool.and_eq_true, decide_eq_true_eq] at h
  exact h.1

/-- No row of the table leads to a mark, but for those that keep the character. -/
theorem upperCase_eq_of_layoutMark {c : Char} (h : upperCase c ∈ layoutMarks) :
    upperCase c = c := by
  have apart : ∀ run ∈ lowercaseRuns, run.toUpper = 0 ∨
      0xA < run.first + run.toUpper ∧ run.last + run.toUpper < 0x7B ∨
      0x7D < run.first + run.toUpper := by decide +kernel
  obtain same | ⟨run, row, inside, upper⟩ := upperCase_cases c
  · exact same
  · have mark := toNat_of_layoutMark h
    rw [upper] at mark ⊢
    have code := toNat_ofNat_of_ne_zero (n := (c.toNat + run.toUpper).toNat) (by omega)
    obtain ⟨low, high⟩ := bounds_of_contains inside
    rcases apart run row with same | ⟨above, below⟩ | above
    · rw [same, Int.add_zero, Int.toNat_natCast, Char.ofNat_toNat]
    · omega
    · omega

end Text

/-! ## Accessors -/

theorem Lookup.mem_display_of_mem_typeArgument {lookup : Lookup} {type : TypeRef} {c : Char}
    (h : c ∈ (lookup.typeArgument type).toList) : c ∈ type.display.toList := by
  unfold typeArgument soughtType at h
  split at h
  · rw [TypeRef.display, String.toList_append]
    exact List.mem_append_left _ h
  · exact h

section Marks

variable {c : Char} (mark : c ∈ layoutMarks)

include mark

theorem Lookup.not_mem_method (lookup : Lookup) : c ∉ lookup.method.toList := by
  have plain : ∀ c ∈ layoutMarks, c ∉ lookup.method.toList := by
    rcases lookup with ⟨_ | _ | _, _ | _⟩ <;> simp [layoutMarks, method]
  exact plain c mark

theorem Lookup.not_mem_arguments (lookup : Lookup) : c ∉ lookup.arguments.toList := by
  have plain : ∀ c ∈ layoutMarks, c ∉ lookup.arguments.toList := by
    unfold arguments
    split <;> simp [layoutMarks]
  exact plain c mark

namespace ResolvedField

variable {field : ResolvedField}

theorem mem_fieldName_of_mem_propertyName (h : c ∈ field.propertyName.toList) :
    c ∈ field.fieldName.toList := by
  rw [propertyName] at h
  obtain none | ⟨before, first, later, split, others, letter⟩ :=
    AccessorName.split_cases field.fieldName
  · rw [AccessorName.ofField_eq_fallback none] at h
    have plain : ∀ c ∈ layoutMarks, c ∉ AccessorName.fallback.text.toList := by
      simp [layoutMarks, AccessorName.text, fallbackName]
    exact absurd h (plain c mark)
  · rw [AccessorName.ofField_of_split split others letter, AccessorName.text,
      String.toList_ofList, List.mem_cons] at h
    rw [split]
    rcases h with rfl | h
    · rw [Text.upperCase_eq_of_layoutMark mark]
      exact List.mem_append_right _ List.mem_cons_self
    · exact List.mem_append_right _ (List.mem_cons_of_mem _ h)

theorem mem_display_of_mem_lookupCall (h : c ∈ field.lookupCall.toList) :
    c ∈ field.fieldType.display.toList := by
  have punctuation : c ∉ "<".toList ∧ c ∉ ">(".toList ∧ c ∉ ")".toList := by
    have plain : ∀ c ∈ layoutMarks, c ∉ "<".toList ∧ c ∉ ">(".toList ∧ c ∉ ")".toList := by
      simp [layoutMarks]
    exact plain c mark
  obtain ⟨opening, middle, closing⟩ := punctuation
  simp only [lookupCall, Lookup.call, String.toList_append, List.mem_append, opening, middle,
    closing, Lookup.not_mem_method mark, Lookup.not_mem_arguments mark, false_or, or_false] at h
  exact Lookup.mem_display_of_mem_typeArgument h

/-- The fixed words of an accessor. -/
theorem not_mem_words :
    ∀ word ∈ ["private ", " ", " => ", " is null", "    ? (", " = ", ")", "    : ", ";"],
      c ∉ word.toList := by
  have plain : ∀ word ∈ ["private ", " ", " => ", " is null", "    ? (", " = ", ")", "    : ", ";"],
      ∀ c ∈ layoutMarks, c ∉ word.toList := by simp [layoutMarks]
  exact fun word hw => plain word hw c mark

/-- A mark in an accessor's lines stands in the field's name or in its type. -/
theorem mem_of_mem_accessorLines {line : String} (hl : line ∈ field.accessorLines)
    (h : c ∈ line.toList) : c ∈ field.fieldName.toList ∨ c ∈ field.fieldType.display.toList := by
  have ofName : c ∈ field.propertyName.toList → c ∈ field.fieldName.toList :=
    mem_fieldName_of_mem_propertyName mark
  have ofCall : c ∈ field.lookupCall.toList → c ∈ field.fieldType.display.toList :=
    mem_display_of_mem_lookupCall mark
  have words := not_mem_words mark
  simp only [List.forall_mem_cons] at words
  simp only [accessorLines, List.mem_cons, List.not_mem_nil, or_false] at hl
  rcases hl with rfl | rfl | rfl
  all_goals
    simp only [toString, String.toList_append, List.mem_append] at h
    grind

end ResolvedField

/-- A mark in a header stands in a name of the owner, of its namespace or of a containing type. -/
theorem OwnerGroup.mem_of_mem_headers {group : OwnerGroup} {header : String}
    (hh : header ∈ group.headers) (h : c ∈ header.toList) :
    ∃ name ∈ group.owner.path, c ∈ name.toList := by
  have plain : ∀ word ∈ ["namespace ", "partial class ", "public partial class "],
      ∀ c ∈ layoutMarks, c ∉ word.toList := by simp [layoutMarks]
  have words : ∀ word ∈ ["namespace ", "partial class ", "public partial class "],
      c ∉ word.toList := fun word hw => plain word hw c mark
  simp only [List.forall_mem_cons] at words
  simp only [headers, List.mem_append, List.mem_map, List.mem_singleton] at hh
  rcases hh with (⟨name, hn, rfl⟩ | ⟨name, hn, rfl⟩) | rfl
  all_goals simp only [String.toList_append, List.mem_append] at h
  · exact ⟨name, by simp [NamedType.path, hn], h.resolve_left words.1⟩
  · exact ⟨name, by simp [NamedType.path, hn], h.resolve_left words.2.1⟩
  · exact ⟨group.owner.name, by simp [NamedType.path], h.resolve_left words.2.2.1⟩

end Marks

/-! ## Units -/

namespace OwnerGroup

/-- None of the marks stands in a name or in a type that the group's unit shows. -/
structure FreeOf (marks : List Char) (group : OwnerGroup) : Prop where
  /-- The namespace, the containing types and the owner itself. -/
  owner : ∀ name ∈ group.owner.path, ∀ c ∈ marks, c ∉ name.toList
  fieldNames : ∀ field ∈ group.fields, ∀ c ∈ marks, c ∉ field.fieldName.toList
  fieldTypes : ∀ field ∈ group.fields, ∀ c ∈ marks, c ∉ field.fieldType.display.toList

variable {marks : List Char} {group : OwnerGroup}

theorem FreeOf.headers (h : group.FreeOf marks) {c : Char} (hc : c ∈ marks)
    (mark : c ∈ layoutMarks) : ∀ header ∈ group.headers, c ∉ header.toList := by
  intro header hh hmem
  obtain ⟨name, hn, hmem⟩ := mem_of_mem_headers mark hh hmem
  exact h.owner name hn c hc hmem

theorem FreeOf.accessorLines (h : group.FreeOf marks) {c : Char} (hc : c ∈ marks)
    (mark : c ∈ layoutMarks) {field : ResolvedField} (hf : field ∈ group.fields) :
    ∀ line ∈ field.accessorLines, c ∉ line.toList := by
  intro line hl hmem
  rcases field.mem_of_mem_accessorLines mark hl hmem with hmem | hmem
  · exact h.fieldNames field hf c hc hmem
  · exact h.fieldTypes field hf c hc hmem

end OwnerGroup

end HierarchyAccessors
