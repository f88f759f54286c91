import HierarchyAccessors.Proofs.Queries
import HierarchyAccessors.Proofs.UnitText

/-!
# The call in the text and the query at run time

The text of an accessor and its reads choose a method, a type argument and the flag for inactive
objects separately. Here a query has a call of its own, made from what the hierarchy is asked and
not from a lookup, and a call is the call of one query only (`Query.call_injective`). The text names
the call of the query that is made.

**Theorem (`first_read_makes_call`).** For every field and hierarchy, the first read of the field's
accessor makes one query, and the lines of the accessor in its unit call what that query stands for
and declare its result.
-/

namespace HierarchyAccessors

/-! ## The call of a query -/

namespace Query

/-- The method of the host that answers the query. -/
def method : Query → String
  | inSelf _ => "GetComponent"
  | allInSelf _ => "GetComponents"
  | inDescendants _ _ => "GetComponentInChildren"
  | allInDescendants _ _ => "GetComponentsInChildren"
  | inAncestors _ _ => "GetComponentInParent"
  | allInAncestors _ _ => "GetComponentsInParent"

/-- The type that the query asks for. -/
def typeName : Query → String
  | inSelf t | allInSelf t => t
  | inDescendants t _ | allInDescendants t _ => t
  | inAncestors t _ | allInAncestors t _ => t

/-- The flag for inactive objects, if the query takes one. -/
def inactive? : Query → Option Bool
  | inSelf _ | allInSelf _ => none
  | inDescendants _ b | allInDescendants _ b => some b
  | inAncestors _ b | allInAncestors _ b => some b

/-- The flag as it is written. -/
def arguments (query : Query) : String :=
  match query.inactive? with
  | none => ""
  | some true => "true"
  | some false => "false"

/-- The call that stands for the query in a unit. -/
def call (query : Query) : String :=
  query.method ++ "<" ++ query.typeName ++ ">(" ++ query.arguments ++ ")"

/-- The type of what the query finds: one match, or an array of all. -/
def resultType : Query → String
  | inSelf t | inDescendants t _ | inAncestors t _ => t
  | allInSelf t | allInDescendants t _ | allInAncestors t _ => t ++ "[]"

/-- The method is what stands before the first bracket. -/
theorem takeWhile_call (query : Query) :
    query.call.toList.takeWhile (· != '<') = query.method.toList := by
  have plain : ∀ c ∈ query.method.toList, (c != '<') = true := by
    cases query <;> simp [method]
  simp only [call, String.toList_append, List.append_assoc]
  rw [List.takeWhile_append_of_pos plain]
  simp

/-- The flag is what stands after the last parenthesis that is opened. -/
theorem takeWhile_reverse_call (query : Query) :
    query.call.toList.reverse.takeWhile (· != '(') = (query.arguments ++ ")").toList.reverse := by
  have plain : ∀ c ∈ (query.arguments ++ ")").toList.reverse, (c != '(') = true := by
    unfold arguments
    rcases query.inactive? with _ | _ | _ <;> simp
  have parts : query.call.toList.reverse =
      (query.arguments ++ ")").toList.reverse ++
        (query.method ++ "<" ++ query.typeName ++ ">(").toList.reverse := by
    simp [call]
  rw [parts, List.takeWhile_append_of_pos plain]
  simp

/-- A query is its method, its type and its flag. -/
theorem eq_of_parts {a b : Query} (methods : a.method = b.method)
    (typeNames : a.typeName = b.typeName) (arguments : a.arguments = b.arguments) : a = b := by
  cases a <;> cases b <;> grind [method, typeName, Query.arguments, inactive?]

/-- Different queries have different calls. -/
theorem call_injective {a b : Query} (h : a.call = b.call) : a = b := by
  have methods : a.method = b.method := by
    rw [← String.toList_inj, ← takeWhile_call, ← takeWhile_call, h]
  have arguments : a.arguments = b.arguments := by
    have ends : (a.arguments ++ ")").toList.reverse = (b.arguments ++ ")").toList.reverse := by
      rw [← takeWhile_reverse_call, ← takeWhile_reverse_call, h]
    exact (String.append_left_inj ")").1 (String.toList_inj.1 (List.reverse_inj.1 ends))
  have typeNames : a.typeName = b.typeName := by
    unfold call at h
    rw [methods, arguments] at h
    simpa [String.append_left_inj, String.append_right_inj] using h
  exact eq_of_parts methods typeNames arguments

end Query

/-! ## The call of a field -/

namespace ResolvedField

theorem lookupCall_eq (field : ResolvedField) : field.lookupCall = field.query.call := by
  rw [query_eq]
  unfold lookupCall Lookup.call
  rcases field.lookup with ⟨_ | _ | _, _ | _⟩ <;> rfl

theorem display_eq_resultType (field : ResolvedField) :
    field.fieldType.display = field.query.resultType := by
  unfold query
  rcases field.source.scope? with _ | _ | _ | _ <;> rcases field.fieldType with _ | _ <;> rfl

theorem inactive?_query_ne (field : ResolvedField) : field.query.inactive? ≠ some false := by
  unfold query
  rcases field.source.scope? with _ | _ | _ | _ <;> rcases field.fieldType with _ | _ <;>
    simp [Query.inactive?]

/-- The lines of the accessor in terms of the query. -/
theorem accessorLines_eq (field : ResolvedField) :
    field.accessorLines =
      [s!"private {field.query.resultType} {field.propertyName} => {field.fieldName} is null",
       s!"    ? ({field.fieldName} = {field.query.call})",
       s!"    : {field.fieldName};"] := by
  rw [accessorLines, display_eq_resultType, lookupCall_eq]

end ResolvedField

/-! ## The first read and the text -/

open IndentedText

/-- **The text and the reads of an accessor agree.** The first read of the accessor makes the query
of the field and nothing else, always with inactive objects where there is a choice, and it returns
and keeps the answer. In the unit of every group with the field, the accessor's lines call the
query, and no other query has that call; the type that they declare is the type of the call's
result. -/
theorem first_read_makes_call {m : Type → Type} [Monad m] [LawfulMonad m] {Handle : Type}
    (field : ResolvedField) (hierarchy : Hierarchy m Handle) (record : List Query) :
    ((Accessor.ofField field).read hierarchy.recording).run record =
        (fun value =>
          ((value, { (Accessor.ofField field : Accessor Handle) with slot := some value }),
            record ++ [field.query])) <$> field.query.ask hierarchy ∧
      field.query.inactive? ≠ some false ∧
      (∀ query : Query, query.call = field.query.call → query = field.query) ∧
      ∀ group : OwnerGroup, field ∈ group.fields →
        group.unit? = some ⟨group.owner.unitFileName, textOf group.lines⟩ ∧
        [s!"private {field.query.resultType} {field.propertyName} => {field.fieldName} is null",
         s!"    ? ({field.fieldName} = {field.query.call})",
         s!"    : {field.fieldName};"].map (indent group.headers.length) <:+: group.lines := by
  refine ⟨?_, field.inactive?_query_ne, fun _ => Query.call_injective, fun group mem => ⟨?_, ?_⟩⟩
  · rw [Accessor.run_read_of_uncached rfl, Accessor.query_ofField]
  · exact OwnerGroup.unit?_of_mem mem
  · rw [← field.accessorLines_eq]
    exact OwnerGroup.infix_lines mem

/-- An array of arrays with two flags is looked up whole, as one object. -/
theorem first_read_makes_fallback_call :
    let field : ResolvedField :=
      ⟨"_grid", ⟨1, "Board", none, []⟩, .array (.array (.named "Cell")), ⟨3⟩⟩
    let table : LookupTable := ⟨[("self:Cell[][]", ["grid"])]⟩
    (((Accessor.ofField field).read table.hierarchy.recording).run []).run [] =
        (((.one (some "grid"), ⟨.fallback, "Cell[][]", some (.one (some "grid"))⟩),
          [.inSelf "Cell[][]"]), ["self:Cell[][]"]) ∧
      ["    private Cell[][] Grid => _grid is null",
       "        ? (_grid = GetComponent<Cell[][]>())",
       "        : _grid;"] <:+: OwnerGroup.lines ⟨field.owner, [field]⟩ := by
  intro field table
  obtain ⟨read, -, -, lines⟩ := first_read_makes_call field table.hierarchy []
  have text := (lines ⟨field.owner, [field]⟩ List.mem_cons_self).2
  have accessor : field.accessorLines.map (indent 1) =
      ["    private Cell[][] Grid => _grid is null",
       "        ? (_grid = GetComponent<Cell[][]>())",
       "        : _grid;"] := by decide +kernel
  rw [← field.accessorLines_eq] at text
  refine ⟨?_, accessor ▸ text⟩
  rw [read]
  rfl

end HierarchyAccessors
