import HierarchyAccessors.Synthesis

/-!
# The lines of a unit

The unit of a group is written by entering and leaving blocks. `OwnerGroup.lines` lays the same text
out as a list of lines: the opening lines of the blocks, the accessors with a blank line between
two of them, and the closing lines. `text_write` says that this is what is written.
-/

namespace HierarchyAccessors

/-- Lines, each with a line break after it. -/
def textOf (lines : List String) : String :=
  String.join (lines.map (· ++ "\n"))

theorem textOf_append (lines more : List String) :
    textOf (lines ++ more) = textOf lines ++ textOf more := by
  simp [textOf]

namespace IndentedText

/-- The text with lines added as they are, and then inside `depth` blocks. -/
def extend (t : IndentedText) (lines : List String) (depth : Nat) : IndentedText :=
  ⟨t.text ++ textOf lines, depth⟩

theorem extend_extend (t : IndentedText) (lines more : List String) (depth depth' : Nat) :
    (t.extend lines depth).extend more depth' = t.extend (lines ++ more) depth' := by
  simp [extend, textOf_append, String.append_assoc]

theorem extend_nil (t : IndentedText) : t.extend [] t.depth = t := by
  simp [extend, textOf]

/-- A line inside `depth` blocks. -/
def indent (depth : Nat) (line : String) : String :=
  indentation depth ++ line

/-- The lines that open the blocks with the given headers, the first inside `depth` others. -/
def openings (depth : Nat) : List String → List String
  | [] => []
  | header :: headers =>
    indent depth header :: indent depth "\x7b" :: openings (depth + 1) headers

/-- The lines that close `count` blocks, the last to be closed inside `depth` others. -/
def closings (depth : Nat) : (count : Nat) → List String
  | 0 => []
  | count + 1 => indent (depth + count) "\x7d" :: closings depth count

/-! ## What is written -/

theorem line_eq (t : IndentedText) (s : String) :
    t.line s = t.extend [indent t.depth s] t.depth := by
  simp [line, extend, textOf, indent, String.append_assoc]

theorem blankLine_eq (t : IndentedText) : t.blankLine = t.extend [""] t.depth := by
  simp [blankLine, extend, textOf]

theorem foldl_line (t : IndentedText) (lines : List String) :
    lines.foldl .line t = t.extend (lines.map (indent t.depth)) t.depth := by
  induction lines generalizing t with
  | nil => exact (extend_nil t).symm
  | cons line lines ih =>
    rw [List.foldl_cons, ih, line_eq, extend_extend]
    rfl

theorem foldl_enter (t : IndentedText) (headers : List String) :
    headers.foldl .enter t =
      t.extend (openings t.depth headers) (t.depth + headers.length) := by
  induction headers generalizing t with
  | nil => exact (extend_nil t).symm
  | cons header headers ih =>
    have enter : t.enter header =
        t.extend [indent t.depth header, indent t.depth "\x7b"] (t.depth + 1) := by
      simp [enter, line_eq, extend, textOf, String.append_assoc]
    rw [List.foldl_cons, ih, enter, extend_extend, List.length_cons]
    have depth : t.depth + 1 + headers.length = t.depth + (headers.length + 1) := by omega
    exact congrArg (t.extend _) depth

theorem foldl_leave (t : IndentedText) (headers : List String) {depth : Nat}
    (h : t.depth = depth + headers.length) :
    headers.foldl (fun t _ => t.leave) t = t.extend (closings depth headers.length) depth := by
  induction headers generalizing t with
  | nil =>
    obtain rfl : t.depth = depth := h
    exact (extend_nil t).symm
  | cons header headers ih =>
    have inner : t.depth - 1 = depth + headers.length := by
      rw [h, List.length_cons]
      omega
    have leave : t.leave =
        t.extend [indent (depth + headers.length) "\x7d"] (depth + headers.length) := by
      simp only [leave, line_eq, inner]
      rfl
    rw [List.foldl_cons, leave, ih _ rfl, extend_extend]
    rfl

end IndentedText

/-! ## Units -/

open IndentedText

/-- The lines of the accessors of the fields inside `depth` blocks, with a blank line between two
accessors. -/
def linesOfAccessors (depth : Nat) (fields : List ResolvedField) : List String :=
  [""].intercalate (fields.map fun field => field.accessorLines.map (indent depth))

theorem IndentedText.accessor_eq (t : IndentedText) (field : ResolvedField) :
    t.accessor field = t.extend (field.accessorLines.map (indent t.depth)) t.depth :=
  foldl_line t field.accessorLines

theorem IndentedText.moreAccessors_eq (t : IndentedText) (field : ResolvedField)
    (fields : List ResolvedField) :
    (t.accessor field).moreAccessors fields =
      t.extend (linesOfAccessors t.depth (field :: fields)) t.depth := by
  induction fields generalizing t field with
  | nil => simp [moreAccessors, accessor_eq, linesOfAccessors]
  | cons next fields ih =>
    have step : (t.accessor field).moreAccessors (next :: fields) =
        ((t.accessor field).blankLine.accessor next).moreAccessors fields := by
      simp only [moreAccessors, List.foldl_cons]
    rw [step, ih, accessor_eq, blankLine_eq, extend_extend, extend_extend]
    simp only [linesOfAccessors, List.map_cons, List.intercalate_cons_cons, extend,
      List.append_assoc]

/-- The lines of each accessor stand together. -/
theorem infix_linesOfAccessors {field : ResolvedField} {fields : List ResolvedField}
    (h : field ∈ fields) (depth : Nat) :
    field.accessorLines.map (indent depth) <:+: linesOfAccessors depth fields := by
  unfold linesOfAccessors
  induction fields with
  | nil => cases h
  | cons first fields ih =>
    cases fields with
    | nil =>
      obtain rfl := List.mem_singleton.1 h
      simp
    | cons next fields =>
      rw [List.map_cons, List.map_cons, List.intercalate_cons_cons]
      rcases List.mem_cons.1 h with rfl | h
      · rw [List.append_assoc]
        exact (List.prefix_append _ _).isInfix
      · exact (ih h).trans (List.suffix_append _ _).isInfix

namespace OwnerGroup

/-- The lines of the group's unit. -/
def lines (group : OwnerGroup) : List String :=
  ["// <auto-generated/>"] ++ openings 0 group.headers ++
    linesOfAccessors group.headers.length group.fields ++ closings 0 group.headers.length

theorem text_write (group : OwnerGroup) : (group.write .empty).text = textOf group.lines := by
  have start : IndentedText.empty.line "// <auto-generated/>" =
      IndentedText.empty.extend ["// <auto-generated/>"] 0 := by
    simp [line_eq, IndentedText.empty, indent, indentation]
  have opened : group.headers.foldl .enter (IndentedText.empty.line "// <auto-generated/>") =
      IndentedText.empty.extend (["// <auto-generated/>"] ++ openings 0 group.headers)
        group.headers.length := by
    rw [start, foldl_enter, extend_extend]
    exact congrArg (IndentedText.empty.extend _) (Nat.zero_add _)
  have close (t : IndentedText) (h : t.depth = group.headers.length) :
      group.headers.foldl (fun t _ => t.leave) t =
        t.extend (closings 0 group.headers.length) 0 :=
    foldl_leave t group.headers (by rw [h, Nat.zero_add])
  cases fields : group.fields with
  | nil =>
    simp only [write, opened, fields]
    rw [close _ rfl, extend_extend]
    simp [extend, IndentedText.empty, lines, linesOfAccessors, fields]
  | cons field rest =>
    simp only [write, opened, fields, moreAccessors_eq, extend_extend]
    rw [close _ rfl, extend_extend]
    simp [extend, IndentedText.empty, lines, fields]

theorem infix_lines {group : OwnerGroup} {field : ResolvedField} (h : field ∈ group.fields) :
    field.accessorLines.map (indent group.headers.length) <:+: group.lines :=
  (infix_linesOfAccessors h _).trans
    ((List.suffix_append _ _).isInfix.trans (List.prefix_append _ _).isInfix)

theorem unit?_of_mem {group : OwnerGroup} {field : ResolvedField} (h : field ∈ group.fields) :
    group.unit? = some ⟨group.owner.unitFileName, textOf group.lines⟩ := by
  have some : group.fields ≠ [] := List.ne_nil_of_mem h
  simp [unit?, some, text_write]

end OwnerGroup

end HierarchyAccessors
