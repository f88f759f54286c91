import HierarchyAccessors.Proofs.AccessorNames
import HierarchyAccessors.Synthesis

/-!
# Accessors with the name of their own field

An accessor stands beside its backing field, so it must not have the field's name. What is written
before the first lowercase letter is dropped, the letter is put in upper case and the rest is kept:
the name is that of the field just if nothing is dropped and the letter stays as it is.

**Theorem (`propertyName_eq_fieldName_iff`).** The accessor has the name of its field if and only if
the field's name starts with a lowercase letter that is its own upper case. The fallback is never
the name of a field that falls back. Nothing is noted about such an accessor for its name.
-/

namespace HierarchyAccessors

/-- A letter is kept where its upper case is not a single character. -/
theorem Text.upperCase_eq_self {c : Char} (several : ∀ u, upperCases c ≠ [u]) :
    upperCase c = c := by
  have upper := isUpperCase_upperCase c
  generalize upperCase c = u at upper ⊢
  cases upper with
  | single alone => exact absurd alone (several _)
  | kept => rfl

namespace AccessorName

/-- The fallback name has lowercase letters, so no field that falls back has this name. -/
theorem text_ne_of_isFallback {field : String} (h : (ofField field).isFallback = true) :
    (ofField field).text ≠ field := by
  obtain none | ⟨before, c, later, split, others, letter⟩ := split_cases field
  · rw [ofField_eq_fallback none]
    rintro rfl
    exact absurd (none 'o' (by decide)) (by decide)
  · rw [ofField_of_split split others letter] at h
    cases h

/-- A derived name has the letters of the field only if the first of them is kept. -/
theorem text_eq_self_iff_of_split {field : String} {before later : List Char} {c : Char}
    (split : field.toList = before ++ c :: later) (others : ∀ d ∈ before, isLowerLetter d = false)
    (letter : isLowerLetter c = true) :
    (ofField field).text = field ↔ before = [] ∧ Text.upperCase c = c := by
  rw [ofField_of_split split others letter, text, ← String.toList_inj, String.toList_ofList, split]
  constructor
  · intro same
    have nothing : before = [] := by
      have length := congrArg List.length same
      simp only [List.length_cons, List.length_append] at length
      exact List.length_eq_zero_iff.1 (by omega)
    rw [nothing, List.nil_append, List.cons.injEq] at same
    exact ⟨nothing, same.1⟩
  · rintro ⟨rfl, kept⟩
    rw [kept, List.nil_append]

/-- The name starts with a lowercase letter that is its own upper case. -/
def StartsKept (field : String) : Prop :=
  ∃ letter later, field = String.singleton letter ++ later ∧ IsLowercaseLetter letter ∧
    Text.upperCase letter = letter

theorem text_ofField_eq_self_iff {field : String} :
    (ofField field).text = field ↔ StartsKept field := by
  constructor
  · intro same
    obtain none | ⟨before, c, later, split, others, letter⟩ := split_cases field
    · have fallback : (ofField field).isFallback = true := by
        rw [ofField_eq_fallback none]
        rfl
      exact absurd same (text_ne_of_isFallback fallback)
    · obtain ⟨rfl, kept⟩ := (text_eq_self_iff_of_split split others letter).1 same
      refine ⟨c, String.ofList later, ?_, isLowerLetter_iff.1 letter, kept⟩
      rw [← String.toList_inj, split]
      simp
  · rintro ⟨letter, later, parts, lowercase, kept⟩
    have split : field.toList = [] ++ letter :: later.toList := by simp [parts]
    exact (text_eq_self_iff_of_split split (by simp) (isLowerLetter_iff.2 lowercase)).2 ⟨rfl, kept⟩

end AccessorName

open AccessorName

namespace ResolvedField

/-- The lines of a member that refers to nothing but itself. -/
def selfReferringLines (field : ResolvedField) : List String :=
  [s!"private {field.fieldType.display} {field.fieldName} => {field.fieldName} is null",
   s!"    ? ({field.fieldName} = {field.lookupCall})",
   s!"    : {field.fieldName};"]

theorem accessorLines_eq_selfReferringLines_iff {field : ResolvedField} :
    field.accessorLines = field.selfReferringLines ↔ field.propertyName = field.fieldName := by
  unfold accessorLines selfReferringLines
  simp only [List.cons.injEq, String.append_left_inj, String.append_right_inj, and_true]
  exact Iff.rfl

/-- What is noted about a member with the name of its field is noted for something else. -/
theorem notice_of_same {field : ResolvedField} (same : field.propertyName = field.fieldName)
    {owner : NamedType} {taken : List String} {d : Diagnostic}
    (mem : d ∈ field.fallbacks owner ++ field.repetition owner taken) :
    d.kind = .nonCanonicalSource ∧ field.source.scope? = none ∨
      d.kind = .duplicateAccessor ∧ field.propertyName ∈ taken := by
  have derived : ¬(ofField field.fieldName).isFallback = true :=
    fun fallback => text_ne_of_isFallback fallback same
  rw [fallbacks, if_neg derived, List.nil_append, List.mem_append] at mem
  rcases mem with mem | mem
  · rw [List.mem_ite_nil_right, Option.isNone_iff_eq_none, List.mem_singleton] at mem
    obtain ⟨none, rfl⟩ := mem
    exact .inl ⟨rfl, none⟩
  · rw [repetition, List.mem_ite_nil_right, List.mem_singleton] at mem
    obtain ⟨repeated, rfl⟩ := mem
    exact .inr ⟨rfl, repeated⟩

/-- **When an accessor has the name of its field.** The name of the field starts with a lowercase
letter that is its own upper case, such as one without a single character for its upper case, and
the member that is written refers to itself. Every other name differs from that of the field, and
so does the fallback. Where the names are the same nothing is noted, unless for the source or for an
earlier accessor of that name. -/
theorem propertyName_eq_fieldName_iff (field : ResolvedField) :
    (field.propertyName = field.fieldName ↔ StartsKept field.fieldName) ∧
    (field.accessorLines = field.selfReferringLines ↔ StartsKept field.fieldName) ∧
    (∀ letter later, field.fieldName = String.singleton letter ++ later →
      IsLowercaseLetter letter → (∀ u, Text.upperCases letter ≠ [u]) →
        field.propertyName = field.fieldName) ∧
    ((ofField field.fieldName).isFallback = true → field.propertyName ≠ field.fieldName) ∧
    (field.propertyName = field.fieldName →
      ∀ owner taken, ∀ d ∈ field.fallbacks owner ++ field.repetition owner taken,
        d.kind = .nonCanonicalSource ∧ field.source.scope? = none ∨
        d.kind = .duplicateAccessor ∧ field.propertyName ∈ taken) := by
  have starts : field.propertyName = field.fieldName ↔ StartsKept field.fieldName :=
    text_ofField_eq_self_iff
  refine ⟨starts, accessorLines_eq_selfReferringLines_iff.trans starts, ?_,
    text_ne_of_isFallback, fun same owner taken d => notice_of_same same⟩
  intro letter later parts lowercase several
  exact starts.2 ⟨letter, later, parts, lowercase, Text.upperCase_eq_self several⟩

/-- A letter whose upper case would be two characters. The type with this one accessor is written
without a diagnostic. -/
theorem propertyName_eq_fieldName_of_sharp_s :
    let owner : NamedType := ⟨1, "Hall", none, []⟩
    let field : ResolvedField := ⟨"ßize", owner, .named "Door", ⟨1⟩⟩
    field.propertyName = field.fieldName ∧
      field.accessorLines = field.selfReferringLines ∧
      field.accessorLines.head? = some "private Door ßize => ßize is null" ∧
      OwnerGroup.diagnostics ⟨owner, [field]⟩ = [] := by
  intro owner field
  obtain ⟨starts, lines, -, -, notes⟩ := propertyName_eq_fieldName_iff field
  have kept : StartsKept "ßize" :=
    ⟨'ß', "ize", by decide, isLowerLetter_iff.1 (by decide), by decide⟩
  have same := starts.2 kept
  have written := lines.2 kept
  have nothing : field.fallbacks owner ++ field.repetition owner [] = [] := by
    refine List.eq_nil_iff_forall_not_mem.2 fun d mem => ?_
    obtain ⟨-, none⟩ | ⟨-, taken⟩ := notes same owner [] d mem
    · exact absurd none (by decide)
    · cases taken
  refine ⟨same, written, ?_, ?_⟩
  · rw [written]
    decide
  · rw [OwnerGroup.diagnostics, OwnerGroup.diagnosticsAfter, nothing]
    rfl

end ResolvedField

end HierarchyAccessors
