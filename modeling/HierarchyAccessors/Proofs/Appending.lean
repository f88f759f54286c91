import HierarchyAccessors.Proofs.Accounting
import Mathlib.Data.List.Forall2

/-!
# Files that are added behind others

Adding files behind those of a compilation adds resolved fields behind the others. Every group that
was there stays in its place, keeps its owner and begins with the fields that it had (`Grows`);
fields of owners that are new come in groups of their own behind these. This holds after each
single field (`Extends.add`). The names of units depend on the owners of the units before them and
on nothing else, so the names that were given stay as well (`forall₂_named`).

**Theorem (`generate_append`).** The units of the longer pass begin with those of the shorter, under
the same names. Each begins with the accessors that it had, to the letter. The diagnostics about
fields that were left out stay the first ones.
-/

namespace HierarchyAccessors

namespace OwnerGroup

/-! ## Growing groups -/

/-- The group is of the same owner and begins with the same fields. -/
structure Grows (group grown : OwnerGroup) : Prop where
  owner : grown.owner = group.owner
  fields : group.fields <+: grown.fields

theorem Grows.refl (group : OwnerGroup) : Grows group group :=
  ⟨rfl, List.prefix_refl _⟩

theorem Grows.append {group grown : OwnerGroup} (h : Grows group grown) (field : ResolvedField) :
    Grows group { grown with fields := grown.fields ++ [field] } :=
  ⟨h.owner, h.fields.trans (List.prefix_append _ _)⟩

/-- The groups stand first among the others, in the same order, but may have grown. -/
def Extends (groups later : List OwnerGroup) : Prop :=
  ∃ kept new, later = kept ++ new ∧ List.Forall₂ Grows groups kept

theorem Extends.refl (groups : List OwnerGroup) : Extends groups groups :=
  ⟨groups, [], (List.append_nil _).symm, List.forall₂_same.2 fun group _ => .refl group⟩

/-- A field more makes one of the groups grow or comes in a group of its own. -/
theorem Extends.add {groups later : List OwnerGroup} (h : Extends groups later)
    (field : ResolvedField) : Extends groups (OwnerGroup.add field later) := by
  obtain ⟨kept, new, rfl, grows⟩ := h
  induction grows with
  | nil => exact ⟨[], OwnerGroup.add field new, rfl, .nil⟩
  | @cons group grown groups kept first grows ih =>
    by_cases same : grown.owner.id = field.owner.id
    · refine ⟨_ :: kept, new, ?_, .cons (first.append field) grows⟩
      rw [List.cons_append, OwnerGroup.add, if_pos same]
      rfl
    · obtain ⟨kept', new', eq, grows'⟩ := ih
      refine ⟨grown :: kept', new', ?_, .cons first grows'⟩
      rw [List.cons_append, OwnerGroup.add, if_neg same, eq]
      rfl

theorem extends_ofFields (fields more : List ResolvedField) :
    Extends (ofFields fields) (ofFields (fields ++ more)) := by
  induction more using List.reverseRecOn with
  | nil =>
    rw [List.append_nil]
    exact .refl _
  | append_singleton more field ih =>
    rw [← List.append_assoc, ofFields_append_singleton]
    exact ih.add field

/-! ## Names -/

theorem named_append (taken : List String) (groups more : List OwnerGroup) :
    named taken (groups ++ more) =
      named taken groups ++ named (taken ++ (named taken groups).map (·.2)) more := by
  induction groups generalizing taken with
  | nil => simp [named]
  | cons group groups ih => simp [named, ih]

/-- A group that has grown keeps the name of its unit. -/
theorem forall₂_named {groups kept : List OwnerGroup} (h : List.Forall₂ Grows groups kept)
    (taken : List String) :
    List.Forall₂ (fun e e' => e'.2 = e.2 ∧ Grows e.1 e'.1) (named taken groups)
      (named taken kept) := by
  induction h generalizing taken with
  | nil => exact .nil
  | cons first _ ih =>
    rw [named, named, first.owner]
    exact .cons ⟨rfl, first⟩ (ih _)

/-! ## Accessors -/

/-- The lines of the group's unit before its accessors. -/
def opening (group : OwnerGroup) : List String :=
  ["// <auto-generated/>"] ++ IndentedText.openings 0 group.headers

/-- The accessors of the group's unit, each by its lines as they stand there. -/
def accessors (group : OwnerGroup) : List (List String) :=
  group.fields.map fun field => field.accessorLines.map (IndentedText.indent group.headers.length)

/-- The lines of the group's unit after its accessors. -/
def closing (group : OwnerGroup) : List String :=
  IndentedText.closings 0 group.headers.length

/-- Two accessors have a blank line between them. -/
theorem lines_eq (group : OwnerGroup) :
    group.lines = group.opening ++ [""].intercalate group.accessors ++ group.closing := rfl

theorem Grows.headers {group grown : OwnerGroup} (h : Grows group grown) :
    grown.headers = group.headers := by
  rw [OwnerGroup.headers, h.owner, OwnerGroup.headers]

/-- The accessors are those of the fields, and stand in as many blocks. -/
theorem Grows.accessors {group grown : OwnerGroup} (h : Grows group grown) :
    group.accessors <+: grown.accessors := by
  rw [OwnerGroup.accessors, OwnerGroup.accessors, h.headers]
  exact h.fields.map _

end OwnerGroup

/-! ## Longer passes -/

open OwnerGroup

theorem resolve_append (fields more : List MarkedField) (facts : Facts) :
    (resolve (fields ++ more) facts).fields =
        (resolve fields facts).fields ++ (resolve more facts).fields ∧
      (resolve (fields ++ more) facts).diagnostics =
        (resolve fields facts).diagnostics ++ (resolve more facts).diagnostics := by
  simp [resolve, outcomes]

/-- The diagnostics about fields that were left out are those of the resolution. -/
theorem filter_losesField_generate (files : List SourceFile) (facts : Facts) :
    (generate files facts).diagnostics.filter (·.kind.losesField) =
      (resolve (markedFields files) facts).diagnostics := by
  have lost : (resolve (markedFields files) facts).diagnostics.filter (·.kind.losesField) =
      (resolve (markedFields files) facts).diagnostics :=
    List.filter_eq_self.2 fun d => losesField_of_mem_resolve
  rw [generate_eq, List.filter_append, lost]
  refine List.append_right_eq_self.2 (List.filter_eq_nil_iff.2 fun d hd => ?_)
  obtain ⟨e, -, hd⟩ := List.mem_flatMap.1 hd
  rw [losesField_of_mem_unit hd]
  exact Bool.false_ne_true

/-- **Files that are added behind others change nothing that was there.** The units of the longer
pass begin with those of the shorter, one for one and under the same names. After the same opening
lines, each has the accessors that it had, line for line, and then perhaps others, before the same
closing lines. The diagnostics about fields that were left out are the first of the longer pass. -/
theorem generate_append (files more : List SourceFile) (facts : Facts) :
    ∃ emitted kept new : List (OwnerGroup × String),
      let unit (e : OwnerGroup × String) : SourceUnit :=
        ⟨e.2, textOf (e.1.opening ++ [""].intercalate e.1.accessors ++ e.1.closing)⟩
      (generate files facts).units = Schema.unit :: emitted.map unit ∧
      (generate (files ++ more) facts).units =
        Schema.unit :: (kept.map unit ++ new.map unit) ∧
      emitted.map (·.1) = ofFields (resolve (markedFields files) facts).fields ∧
      List.Forall₂ (fun e e' => e'.2 = e.2 ∧ e'.1.owner = e.1.owner ∧
        e'.1.opening = e.1.opening ∧ e.1.accessors <+: e'.1.accessors ∧
        e'.1.closing = e.1.closing) emitted kept ∧
      (generate files facts).diagnostics.filter (·.kind.losesField) <+:
        (generate (files ++ more) facts).diagnostics := by
  obtain ⟨fields, diagnostics⟩ := resolve_append (markedFields files) (markedFields more) facts
  rw [← markedFields_append] at fields diagnostics
  have longer := extends_ofFields (resolve (markedFields files) facts).fields
    (resolve (markedFields more) facts).fields
  rw [← fields] at longer
  obtain ⟨kept, new, groups, grows⟩ := longer
  obtain ⟨later, names⟩ : ∃ later, named [Schema.unit.name] (kept ++ new) =
      named [Schema.unit.name] kept ++ later := ⟨_, named_append _ _ _⟩
  refine ⟨namedGroups files facts, named [Schema.unit.name] kept, later, ?_, ?_, ?_, ?_, ?_⟩
  · rw [generate_eq]
    simp only [source, text_write, lines_eq]
  · rw [generate_eq, namedGroups, groups, names]
    simp only [source, text_write, lines_eq, List.map_append]
  · exact map_fst_named _ _
  · refine (forall₂_named grows _).imp fun e e' same => ?_
    obtain ⟨name, grown⟩ := same
    exact ⟨name, grown.owner, by rw [opening, grown.headers, opening], grown.accessors,
      by rw [closing, grown.headers, closing]⟩
  · rw [filter_losesField_generate, generate_eq, diagnostics, List.append_assoc]
    exact List.prefix_append _ _

end HierarchyAccessors
