import HierarchyAccessors.Proofs.Lines
import Mathlib.Data.List.Forall2

/-!
# What the text of a unit tells about its group

The text of a unit can be read back line by line. The headers end with that of the owner, which
alone is public; after each accessor comes either a blank line and the next accessor or the first
closing brace. So where no name and no type has a line break, the text determines the owner's
namespace, its containing types and its name, and for each accessor the field, its type and the call
of its lookup.

**Theorem (`contents_eq_of_source_eq`).** Two groups with the same text agree on all of these.

Reading works on a text with more lines behind it: `openings_append_inj` for the headers and
`accessors_append_inj` for the accessors say that equal lines come apart at the same place.
-/

namespace HierarchyAccessors

namespace IndentedText

theorem indent_inj {depth : Nat} {line line' : String} :
    indent depth line = indent depth line' ↔ line = line' :=
  String.append_right_inj _

theorem map_indent_inj {depth : Nat} {lines lines' : List String} :
    lines.map (indent depth) = lines'.map (indent depth) ↔ lines = lines' :=
  List.map_inj_right fun _ _ => indent_inj.1

theorem newline_not_mem_openings {headers : List String}
    (h : ∀ header ∈ headers, '\n' ∉ header.toList) (depth : Nat) :
    ∀ line ∈ openings depth headers, '\n' ∉ line.toList := by
  induction headers generalizing depth with
  | nil => simp [openings]
  | cons header headers ih =>
    obtain ⟨first, rest⟩ := List.forall_mem_cons.1 h
    rw [openings, List.forall_mem_cons, List.forall_mem_cons]
    exact ⟨newline_not_mem_indent first, newline_not_mem_indent (by decide), ih rest (depth + 1)⟩

theorem newline_not_mem_closings (depth count : Nat) :
    ∀ line ∈ closings depth count, '\n' ∉ line.toList := by
  induction count with
  | zero => simp [closings]
  | succ count ih =>
    rw [closings, List.forall_mem_cons]
    exact ⟨newline_not_mem_indent (by decide), ih⟩

/-! ## Headers -/

/-- Headers up to the first one that ends them can be read back, whatever lines follow. -/
theorem openings_append_inj {blocks blocks' : List String} {last last' : String}
    {rest rest' : List String} {depth : Nat} (ends : last ∉ blocks') (ends' : last' ∉ blocks)
    (h : openings depth (blocks ++ [last]) ++ rest = openings depth (blocks' ++ [last']) ++ rest') :
    blocks = blocks' ∧ last = last' ∧ rest = rest' := by
  induction blocks generalizing blocks' depth with
  | nil =>
    cases blocks' with
    | nil =>
      simp only [List.nil_append, openings, List.cons_append, List.cons.injEq, indent_inj] at h
      exact ⟨rfl, h.1, h.2.2⟩
    | cons block' blocks' =>
      simp only [List.nil_append, openings, List.cons_append, List.cons.injEq, indent_inj] at h
      exact absurd (h.1 ▸ List.mem_cons_self) ends
  | cons block blocks ih =>
    cases blocks' with
    | nil =>
      simp only [List.nil_append, openings, List.cons_append, List.cons.injEq, indent_inj] at h
      exact absurd (h.1 ▸ List.mem_cons_self) ends'
    | cons block' blocks' =>
      simp only [openings, List.cons_append, List.cons.injEq, indent_inj, true_and] at h
      obtain ⟨rfl, h⟩ := h
      obtain ⟨rfl, same⟩ := ih (mt (List.mem_cons_of_mem _) ends)
        (mt (List.mem_cons_of_mem _) ends') h
      exact ⟨rfl, same⟩

end IndentedText

open IndentedText

/-! ## Accessors -/

/-- The accessors of the two fields say the same: they keep the value in a field of one name, have
the same type and look it up by the same call. -/
structure ResolvedField.SameAccessor (field other : ResolvedField) : Prop where
  fieldName : field.fieldName = other.fieldName
  display : field.fieldType.display = other.fieldType.display
  lookupCall : field.lookupCall = other.lookupCall

namespace ResolvedField

/-- The last line gives the field, with it the second gives the call, and the first the type. -/
theorem sameAccessor_of_accessorLines_eq {field other : ResolvedField}
    (h : field.accessorLines = other.accessorLines) : field.SameAccessor other := by
  simp only [accessorLines, List.cons.injEq, and_true] at h
  obtain ⟨declaration, call, name⟩ := h
  have fieldName : field.fieldName = other.fieldName := by
    simpa [toString, String.append_left_inj, String.append_right_inj] using name
  have propertyName : field.propertyName = other.propertyName := by
    rw [ResolvedField.propertyName, fieldName, ResolvedField.propertyName]
  rw [fieldName] at call
  rw [fieldName, propertyName] at declaration
  exact {
    fieldName
    display := by
      simpa [toString, String.append_left_inj, String.append_right_inj] using declaration
    lookupCall := by simpa [toString, String.append_left_inj, String.append_right_inj] using call }

end ResolvedField

theorem linesOfAccessors_singleton (depth : Nat) (field : ResolvedField) :
    linesOfAccessors depth [field] = field.accessorLines.map (indent depth) := by
  simp [linesOfAccessors]

theorem linesOfAccessors_cons_cons (depth : Nat) (field next : ResolvedField)
    (fields : List ResolvedField) :
    linesOfAccessors depth (field :: next :: fields) =
      field.accessorLines.map (indent depth) ++ "" :: linesOfAccessors depth (next :: fields) := by
  simp [linesOfAccessors, List.intercalate_cons_cons]

theorem newline_not_mem_linesOfAccessors {fields : List ResolvedField}
    (h : ∀ field ∈ fields, ∀ line ∈ field.accessorLines, '\n' ∉ line.toList) (depth : Nat) :
    ∀ line ∈ linesOfAccessors depth fields, '\n' ∉ line.toList := by
  have plain : ∀ field ∈ fields, ∀ line ∈ field.accessorLines.map (indent depth),
      '\n' ∉ line.toList := fun field hf =>
    List.forall_mem_map.2 fun line hl => newline_not_mem_indent (h field hf line hl)
  clear h
  induction fields with
  | nil => simp [linesOfAccessors]
  | cons field fields ih =>
    obtain ⟨first, plain⟩ := List.forall_mem_cons.1 plain
    cases fields with
    | nil => rwa [linesOfAccessors_singleton]
    | cons next fields =>
      rw [linesOfAccessors_cons_cons, List.forall_mem_append, List.forall_mem_cons]
      exact ⟨first, by decide, ih plain⟩

/-- The three lines of an accessor can be read back, whatever lines follow. -/
theorem accessorLines_append_inj {field other : ResolvedField} {rest rest' : List String}
    {depth : Nat} (h : field.accessorLines.map (indent depth) ++ rest =
      other.accessorLines.map (indent depth) ++ rest') :
    field.SameAccessor other ∧ rest = rest' := by
  obtain ⟨lines, rest⟩ := List.append_inj h (by simp [ResolvedField.accessorLines])
  exact ⟨ResolvedField.sameAccessor_of_accessorLines_eq (map_indent_inj.1 lines), rest⟩

/-- Accessors up to a line that is not blank can be read back, whatever that line is. -/
theorem accessors_append_inj {fields fields' : List ResolvedField} {rest rest' : List String}
    {depth : Nat} (nonempty : fields ≠ []) (nonempty' : fields' ≠ [])
    (ends : rest.head? ≠ some "") (ends' : rest'.head? ≠ some "")
    (h : linesOfAccessors depth fields ++ rest = linesOfAccessors depth fields' ++ rest') :
    List.Forall₂ ResolvedField.SameAccessor fields fields' ∧ rest = rest' := by
  induction fields generalizing fields' with
  | nil => exact absurd rfl nonempty
  | cons field fields ih =>
    obtain ⟨field', fields', rfl⟩ := List.exists_cons_of_ne_nil nonempty'
    -- The line after the first accessors is blank in both or in none.
    cases fields with
    | nil =>
      cases fields' with
      | nil =>
        rw [linesOfAccessors_singleton, linesOfAccessors_singleton] at h
        obtain ⟨first, same⟩ := accessorLines_append_inj h
        exact ⟨.cons first .nil, same⟩
      | cons next' fields' =>
        rw [linesOfAccessors_singleton, linesOfAccessors_cons_cons, List.append_assoc] at h
        obtain ⟨-, same⟩ := accessorLines_append_inj h
        exact absurd (congrArg List.head? same) ends
    | cons next fields =>
      cases fields' with
      | nil =>
        rw [linesOfAccessors_singleton, linesOfAccessors_cons_cons, List.append_assoc] at h
        obtain ⟨-, same⟩ := accessorLines_append_inj h
        exact absurd (congrArg List.head? same.symm) ends'
      | cons next' fields' =>
        rw [linesOfAccessors_cons_cons, linesOfAccessors_cons_cons, List.append_assoc,
          List.append_assoc] at h
        obtain ⟨first, same⟩ := accessorLines_append_inj h
        obtain ⟨others, same⟩ := ih (List.cons_ne_nil _ _) (List.cons_ne_nil _ _)
          (List.cons.inj same).2
        exact ⟨.cons first others, same⟩

/-! ## Units -/

namespace OwnerGroup

/-- The headers of the blocks around the owner, outermost first. -/
def outerHeaders (group : OwnerGroup) : List String :=
  group.owner.namespaceName.toList.map ("namespace " ++ ·) ++
    group.owner.containingTypes.map ("partial class " ++ ·)

theorem headers_eq (group : OwnerGroup) :
    group.headers = group.outerHeaders ++ ["public partial class " ++ group.owner.name] := rfl

/-- The header of the owner is the only one that is public. -/
theorem public_not_mem_outerHeaders (group : OwnerGroup) (name : String) :
    "public partial class " ++ name ∉ group.outerHeaders := by
  intro h
  simp only [outerHeaders, List.mem_append, List.mem_map] at h
  rcases h with ⟨namespaceName, -, h⟩ | ⟨container, -, h⟩
  · have first := congrArg (·.toList.head?) h
    simp at first
  · have second := congrArg (·.toList[1]?) h
    simp at second

/-- The first header tells whether there is a namespace. -/
theorem of_outerHeaders_eq {group other : OwnerGroup}
    (h : group.outerHeaders = other.outerHeaders) :
    group.owner.namespaceName = other.owner.namespaceName ∧
      group.owner.containingTypes = other.owner.containingTypes := by
  have containers {types types' : List String}
      (h : types.map ("partial class " ++ ·) = types'.map ("partial class " ++ ·)) :
      types = types' :=
    (List.map_inj_right fun _ _ => (String.append_right_inj _).1).1 h
  have apart {name : String} {types rest : List String}
      (h : types.map ("partial class " ++ ·) = ("namespace " ++ name) :: rest) : False := by
    obtain ⟨container, -, -, h, -⟩ := List.map_eq_cons_iff.1 h
    have first := congrArg (·.toList.head?) h
    simp at first
  unfold outerHeaders at h
  cases namespaceName : group.owner.namespaceName with
  | none =>
    cases namespaceName' : other.owner.namespaceName with
    | none =>
      rw [namespaceName, namespaceName'] at h
      exact ⟨rfl, containers h⟩
    | some name' =>
      rw [namespaceName, namespaceName'] at h
      exact (apart h).elim
  | some name =>
    cases namespaceName' : other.owner.namespaceName with
    | none =>
      rw [namespaceName, namespaceName'] at h
      exact (apart h.symm).elim
    | some name' =>
      rw [namespaceName, namespaceName'] at h
      obtain ⟨first, h⟩ := List.cons.inj h
      exact ⟨congrArg some ((String.append_right_inj _).1 first), containers h⟩

/-- After the accessors stands a closing brace. -/
theorem head?_closings_headers (group : OwnerGroup) :
    (closings 0 group.headers.length).head? ≠ some "" := by
  have brace (depth : Nat) : indent depth "\x7d" ≠ "" := by
    simp [indent]
  rw [headers_eq, List.length_append]
  exact fun h => brace _ (Option.some.inj h)

theorem newline_not_mem_lines {group : OwnerGroup} (free : group.FreeOf ['\n']) :
    ∀ line ∈ group.lines, '\n' ∉ line.toList := by
  have own : '\n' ∈ ['\n'] := List.mem_singleton_self _
  have mark : '\n' ∈ layoutMarks := by decide
  unfold lines
  simp only [List.forall_mem_append]
  refine ⟨⟨⟨by decide, ?_⟩, ?_⟩, ?_⟩
  · exact newline_not_mem_openings (free.headers own mark) 0
  · exact newline_not_mem_linesOfAccessors (fun field hf => free.accessorLines own mark hf) _
  · exact newline_not_mem_closings 0 _

/-- The lines of the unit say what the group is. -/
theorem contents_eq_of_lines_eq {group other : OwnerGroup} (nonempty : group.fields ≠ [])
    (nonempty' : other.fields ≠ []) (h : group.lines = other.lines) :
    group.owner.namespaceName = other.owner.namespaceName ∧
      group.owner.containingTypes = other.owner.containingTypes ∧
      group.owner.name = other.owner.name ∧
      List.Forall₂ ResolvedField.SameAccessor group.fields other.fields := by
  unfold lines at h
  simp only [List.append_assoc, List.append_cancel_left_eq] at h
  rw [headers_eq, headers_eq] at h
  obtain ⟨outer, owner, h⟩ := openings_append_inj (other.public_not_mem_outerHeaders _)
    (group.public_not_mem_outerHeaders _) h
  obtain ⟨namespaceName, containingTypes⟩ := of_outerHeaders_eq outer
  rw [outer, owner, ← headers_eq] at h
  obtain ⟨accessors, -⟩ := accessors_append_inj nonempty nonempty'
    other.head?_closings_headers other.head?_closings_headers h
  exact ⟨namespaceName, containingTypes, (String.append_right_inj _).1 owner, accessors⟩

/-- **The text of a unit loses nothing.** Two groups with fields, and without line breaks in the
names and types that their units show, may have the same text only if they have the same namespace
or none, the same containing types in the same order, the same name, and as many fields, which agree
one by one in their names, in the types that are written and in the calls that look them up. -/
theorem contents_eq_of_source_eq {group other : OwnerGroup} (nonempty : group.fields ≠ [])
    (nonempty' : other.fields ≠ []) (free : group.FreeOf ['\n']) (free' : other.FreeOf ['\n'])
    (same : group.unit?.map (·.source) = other.unit?.map (·.source)) :
    group.owner.namespaceName = other.owner.namespaceName ∧
      group.owner.containingTypes = other.owner.containingTypes ∧
      group.owner.name = other.owner.name ∧
      group.fields.length = other.fields.length ∧
      List.Forall₂ ResolvedField.SameAccessor group.fields other.fields := by
  obtain ⟨field, mem⟩ := List.exists_mem_of_ne_nil _ nonempty
  obtain ⟨field', mem'⟩ := List.exists_mem_of_ne_nil _ nonempty'
  rw [unit?_of_mem mem, unit?_of_mem mem'] at same
  have texts : linesOf (textOf group.lines) = linesOf (textOf other.lines) :=
    congrArg linesOf (Option.some.inj same)
  rw [linesOf_textOf (newline_not_mem_lines free), linesOf_textOf (newline_not_mem_lines free')]
    at texts
  obtain ⟨namespaceName, containingTypes, name, accessors⟩ :=
    contents_eq_of_lines_eq nonempty nonempty' (List.append_cancel_right texts)
  exact ⟨namespaceName, containingTypes, name, accessors.length_eq, accessors⟩

/-- The ids of owners and the flags of sources are not in the text, and neither is whether a type
that is read whole is an array or has brackets in its name. -/
theorem contents_eq_of_type_read_whole :
    let owner : NamedType := ⟨1, "Board", some "Game", ["Match"]⟩
    let group : OwnerGroup :=
      ⟨owner, [⟨"_grid", owner, .array (.named "Cell"), ⟨3⟩⟩, ⟨"_view", owner, .named "View", ⟨4⟩⟩]⟩
    let owner' : NamedType := ⟨2, "Board", some "Game", ["Match"]⟩
    let other : OwnerGroup :=
      ⟨owner', [⟨"_grid", owner', .named "Cell[]", ⟨1⟩⟩, ⟨"_view", owner', .named "View", ⟨4⟩⟩]⟩
    group ≠ other ∧ group.unit?.map (·.source) = other.unit?.map (·.source) ∧
      group.owner.containingTypes = other.owner.containingTypes ∧
      List.Forall₂ ResolvedField.SameAccessor group.fields other.fields := by
  intro owner group owner' other
  have same : group.unit?.map (·.source) = other.unit?.map (·.source) := by decide +kernel
  have free : group.FreeOf ['\n'] := by
    constructor <;> simp [group, owner, NamedType.path, TypeRef.display]
  have free' : other.FreeOf ['\n'] := by
    constructor <;> simp [other, owner', NamedType.path, TypeRef.display]
  obtain ⟨-, containingTypes, -, -, accessors⟩ :=
    contents_eq_of_source_eq (List.cons_ne_nil _ _) (List.cons_ne_nil _ _) free free' same
  exact ⟨by decide, same, containingTypes, accessors⟩

end OwnerGroup

end HierarchyAccessors
