import HierarchyAccessors.Proofs.Lines

/-!
# How the blocks of a unit nest

The writer counts the blocks that are open and never looks back at the text. Here the text is
compared with the count. A unit is written in single steps; `WriterStep.Leads` says which steps lead
from one number of open blocks to another without closing a block that is not open. Along such
steps, the text at every moment has as many opening braces as blocks were opened, as many closing
ones as were closed, and every line is indented by the blocks that are open there (`Nested`).

**Theorem (`well_nested`).** Where no name and no type has a brace or a line break, the text of a
unit has as many braces of either kind as the unit has blocks. No prefix closes more blocks than
it opens, every line is indented by the blocks around it, and the last block is left in the end.

One step keeps the invariant (`NestsWell.step`), so all do (`NestsWell.run`).
-/

namespace HierarchyAccessors

/-! ## Steps of a writer -/

/-- What is done at once to an indented text. -/
inductive WriterStep
  | line (s : String)
  | blankLine
  | enter (header : String)
  | leave

namespace WriterStep

def apply (t : IndentedText) : WriterStep → IndentedText
  | line s => t.line s
  | blankLine => t.blankLine
  | enter header => t.enter header
  | leave => t.leave

def isEnter : WriterStep → Bool
  | enter _ => true
  | _ => false

/-- The steps lead from one number of open blocks to another. Only a block that is open is left. -/
inductive Leads : Nat → List WriterStep → Nat → Prop
  | nil (depth : Nat) : Leads depth [] depth
  | line {depth depth' : Nat} {steps : List WriterStep} (s : String) :
      Leads depth steps depth' → Leads depth (.line s :: steps) depth'
  | blankLine {depth depth' : Nat} {steps : List WriterStep} :
      Leads depth steps depth' → Leads depth (.blankLine :: steps) depth'
  | enter {depth depth' : Nat} {steps : List WriterStep} (header : String) :
      Leads (depth + 1) steps depth' → Leads depth (.enter header :: steps) depth'
  | leave {depth depth' : Nat} {steps : List WriterStep} :
      Leads depth steps depth' → Leads (depth + 1) (.leave :: steps) depth'

namespace Leads

variable {depth middle depth' : Nat} {steps more : List WriterStep}

theorem append (h : Leads depth steps middle) (h' : Leads middle more depth') :
    Leads depth (steps ++ more) depth' := by
  induction h with
  | nil => exact h'
  | line s _ ih => exact .line s (ih h')
  | blankLine _ ih => exact .blankLine (ih h')
  | enter header _ ih => exact .enter header (ih h')
  | leave _ ih => exact .leave (ih h')

theorem eq_of_nil (h : Leads depth [] depth') : depth = depth' := by
  cases h
  rfl

/-- After the first step the others still lead to the end. -/
theorem step {t : IndentedText} {step : WriterStep} (h : Leads t.depth (step :: steps) depth') :
    (step = .leave → 0 < t.depth) ∧ Leads (step.apply t).depth steps depth' := by
  generalize start : t.depth = depth at h
  cases h with
  | line s h => exact ⟨nofun, start ▸ h⟩
  | blankLine h => exact ⟨nofun, start ▸ h⟩
  | enter header h =>
    have outer : (apply t (.enter header)).depth = depth + 1 := congrArg (· + 1) start
    exact ⟨nofun, outer ▸ h⟩
  | leave h =>
    have inner : (apply t .leave).depth = _ := congrArg (· - 1) start
    exact ⟨fun _ => Nat.succ_pos _, inner ▸ h⟩

/-- In the middle of the steps the count of the writer is the one from which the others lead on. -/
theorem foldl {t : IndentedText} (h : Leads t.depth (steps ++ more) depth') :
    Leads (steps.foldl apply t).depth more depth' := by
  induction steps generalizing t with
  | nil => exact h
  | cons first steps ih => exact ih h.step.2

/-- In the end the count of the writer is right. -/
theorem depth_foldl {t : IndentedText} (h : Leads t.depth steps depth') :
    (steps.foldl apply t).depth = depth' := by
  rw [← List.append_nil steps] at h
  exact h.foldl.eq_of_nil

/-- The count is not 0 where a block is left. -/
theorem depth_pos {t : IndentedText} {before after : List WriterStep}
    (h : Leads t.depth (before ++ .leave :: after) depth') :
    0 < (before.foldl apply t).depth :=
  h.foldl.step.1 rfl

/-- Steps that write single lines stay where they are. -/
theorem of_lines (h : ∀ step ∈ steps, step = .blankLine ∨ ∃ s, step = .line s) (depth : Nat) :
    Leads depth steps depth := by
  induction steps with
  | nil => exact .nil depth
  | cons step steps ih =>
    obtain ⟨first, others⟩ := List.forall_mem_cons.1 h
    rcases first with rfl | ⟨s, rfl⟩
    · exact .blankLine (ih others)
    · exact .line s (ih others)

theorem of_headers (depth : Nat) (headers : List String) :
    Leads depth (headers.map .enter) (depth + headers.length) := by
  induction headers generalizing depth with
  | nil => exact .nil depth
  | cons header headers ih =>
    have rest := ih (depth + 1)
    rw [Nat.add_right_comm, Nat.add_assoc] at rest
    exact .enter header rest

/-- As many blocks are left as there are headers. -/
theorem back_of_headers (depth : Nat) (headers : List String) :
    Leads (depth + headers.length) (headers.map fun _ => .leave) depth := by
  induction headers with
  | nil => exact .nil depth
  | cons header headers ih => exact .leave ih

end Leads

end WriterStep

open WriterStep IndentedText

/-! ## The steps of a unit -/

/-- The accessors are written line by line, with a blank line between two of them. -/
def accessorSteps (fields : List ResolvedField) : List WriterStep :=
  [.blankLine].intercalate (fields.map fun field => field.accessorLines.map .line)

theorem accessorSteps_singleton (field : ResolvedField) :
    accessorSteps [field] = field.accessorLines.map .line := by
  simp [accessorSteps]

theorem accessorSteps_cons_cons (field next : ResolvedField) (fields : List ResolvedField) :
    accessorSteps (field :: next :: fields) =
      field.accessorLines.map .line ++ .blankLine :: accessorSteps (next :: fields) := by
  simp [accessorSteps, List.intercalate_cons_cons]

theorem foldl_accessorSteps (t : IndentedText) (field : ResolvedField)
    (fields : List ResolvedField) :
    (accessorSteps (field :: fields)).foldl apply t = (t.accessor field).moreAccessors fields := by
  have accessor (t : IndentedText) (field : ResolvedField) :
      (field.accessorLines.map .line).foldl apply t = t.accessor field := by
    rw [List.foldl_map]
    rfl
  induction fields generalizing t field with
  | nil =>
    rw [accessorSteps_singleton, accessor]
    rfl
  | cons next fields ih =>
    rw [accessorSteps_cons_cons, List.foldl_append, List.foldl_cons, ih, accessor]
    simp only [moreAccessors, List.foldl_cons, apply]

/-- Lines of accessors and blank lines are all that is written. -/
theorem mem_accessorSteps {fields : List ResolvedField} {step : WriterStep}
    (h : step ∈ accessorSteps fields) :
    step = .blankLine ∨ ∃ field ∈ fields, ∃ line ∈ field.accessorLines, step = .line line := by
  induction fields with
  | nil => cases h
  | cons field fields ih =>
    have first (h : step ∈ field.accessorLines.map .line) :
        ∃ field' ∈ field :: fields, ∃ line ∈ field'.accessorLines, step = .line line := by
      obtain ⟨line, hl, rfl⟩ := List.mem_map.1 h
      exact ⟨field, List.mem_cons_self, line, hl, rfl⟩
    cases fields with
    | nil =>
      rw [accessorSteps_singleton] at h
      exact .inr (first h)
    | cons next fields =>
      rw [accessorSteps_cons_cons, List.mem_append, List.mem_cons] at h
      rcases h with h | rfl | h
      · exact .inr (first h)
      · exact .inl rfl
      · refine (ih h).imp_right fun ⟨field', hf, rest⟩ => ?_
        exact ⟨field', List.mem_cons_of_mem _ hf, rest⟩

theorem leads_accessorSteps (depth : Nat) (fields : List ResolvedField) :
    Leads depth (accessorSteps fields) depth := by
  refine .of_lines (fun step h => ?_) depth
  exact (mem_accessorSteps h).imp_right fun ⟨_, _, s, _, same⟩ => ⟨s, same⟩

namespace OwnerGroup

/-- The steps in which the unit of the group is written. -/
def steps (group : OwnerGroup) : List WriterStep :=
  .line "// <auto-generated/>" :: (group.headers.map .enter ++ accessorSteps group.fields ++
    group.headers.map fun _ => .leave)

theorem write_eq_foldl (group : OwnerGroup) (t : IndentedText) :
    group.write t = group.steps.foldl apply t := by
  rw [steps, List.foldl_cons, List.foldl_append, List.foldl_append, List.foldl_map, List.foldl_map]
  unfold write
  cases group.fields with
  | nil => rfl
  | cons field fields =>
    rw [foldl_accessorSteps]
    rfl

theorem leads_steps (group : OwnerGroup) : Leads 0 group.steps 0 := by
  have opened : Leads 0 (group.headers.map .enter) group.headers.length := by
    simpa using Leads.of_headers 0 group.headers
  have left : Leads group.headers.length (group.headers.map fun _ => .leave) 0 := by
    simpa using Leads.back_of_headers 0 group.headers
  exact .line _ ((opened.append (leads_accessorSteps _ _)).append left)

end OwnerGroup

/-! ## Lines -/

/-- How often a brace stands in the lines. -/
def braces (brace : Char) (lines : List String) : Nat :=
  (textOf lines).toList.count brace

theorem braces_append_singleton {brace : Char} (h : brace ≠ '\n') (lines : List String)
    (line : String) :
    braces brace (lines ++ [line]) = braces brace lines + line.toList.count brace := by
  simp [braces, textOf, h.symm]

/-- How many spaces the line begins with. -/
def leadingSpaces (line : String) : Nat :=
  (line.toList.takeWhile (· == ' ')).length

/-- The line without its leading spaces. -/
def unindented (line : String) : String :=
  .ofList (line.toList.dropWhile (· == ' '))

section Indented

variable {depth : Nat} {content : String}

theorem toList_indent :
    (indent depth content).toList = List.replicate (4 * depth) ' ' ++ content.toList := by
  simp [indent, indentation]

theorem leadingSpaces_indent (first : content.toList.head? ≠ some ' ') :
    leadingSpaces (indent depth content) = 4 * depth := by
  have stops : content.toList.takeWhile (· == ' ') = [] := by
    cases letters : content.toList <;> simp_all
  rw [leadingSpaces, toList_indent, List.takeWhile_append_of_pos (by simp), stops]
  simp

theorem unindented_indent (first : content.toList.head? ≠ some ' ') :
    unindented (indent depth content) = content := by
  have stops : content.toList.dropWhile (· == ' ') = content.toList := by
    cases letters : content.toList <;> simp_all
  rw [unindented, toList_indent, List.dropWhile_append_of_pos (by simp), stops,
    String.ofList_toList]

theorem count_indent {c : Char} (h : c ≠ ' ') :
    (indent depth content).toList.count c = content.toList.count c := by
  rw [toList_indent, List.count_append, List.count_replicate]
  simp [h.symm]

theorem indent_indented : indent depth ("    " ++ content) = indent (depth + 1) content := by
  rw [← String.toList_inj, toList_indent, toList_indent, Nat.mul_add,
    ← List.replicate_append_replicate]
  simp

end Indented

/-! ## The invariant -/

/-- The line is indented by the blocks that are open there, if the lines `before` come before it. A
block that the line closes is no longer open, and some contents are indented once more. -/
structure IndentedAfter (continuations before : List String) (line : String) : Prop where
  closes : braces '\x7d' (before ++ [line]) ≤ braces '\x7b' before
  spaces : leadingSpaces line =
    4 * (braces '\x7b' before - braces '\x7d' (before ++ [line])) +
      if unindented line ∈ continuations then 4 else 0

/-- The braces of the lines match the blocks: `entered` were opened and `depth` of them are open. -/
structure Nested (continuations lines : List String) (entered depth : Nat) : Prop where
  noBreaks : ∀ line ∈ lines, '\n' ∉ line.toList
  opened : braces '\x7b' lines = entered
  closed : braces '\x7d' lines + depth = entered
  prefixes : ∀ start, start <+: (textOf lines).toList → start.count '\x7d' ≤ start.count '\x7b'
  indented : ∀ before line after, lines = before ++ line :: after → line ≠ "" →
    IndentedAfter continuations before line

namespace Nested

variable {continuations lines : List String} {entered depth : Nat}

theorem nil : Nested continuations [] 0 0 where
  noBreaks := by simp
  opened := rfl
  closed := rfl
  prefixes start h := by
    obtain rfl : start = [] := List.prefix_nil.1 h
    simp
  indented before line after h := by simp at h

/-- A line that closes no more blocks than are open keeps the invariant if it is indented. -/
theorem append (h : Nested continuations lines entered depth) {line : String}
    (noBreak : '\n' ∉ line.toList) (few : line.toList.count '\x7d' ≤ depth)
    (spaces : line ≠ "" → leadingSpaces line = 4 * (depth - line.toList.count '\x7d') +
      if unindented line ∈ continuations then 4 else 0) :
    Nested continuations (lines ++ [line]) (entered + line.toList.count '\x7b')
      (depth - line.toList.count '\x7d' + line.toList.count '\x7b') where
  noBreaks := by
    rw [List.forall_mem_append, List.forall_mem_singleton]
    exact ⟨h.noBreaks, noBreak⟩
  opened := by rw [braces_append_singleton (by decide), h.opened]
  closed := by
    have closed := h.closed
    rw [braces_append_singleton (by decide)]
    omega
  prefixes start hs := by
    have parts : (textOf (lines ++ [line])).toList =
        (textOf lines).toList ++ (line.toList ++ ['\n']) := by
      simp [textOf]
    rw [parts] at hs
    rcases List.prefix_or_prefix_of_prefix hs (List.prefix_append _ _) with hs' | ⟨rest, rfl⟩
    · exact h.prefixes start hs'
    · -- Even if all of the line's closing braces are in the prefix, there are enough blocks.
      have inLine : rest.count '\x7d' ≤ line.toList.count '\x7d' := by
        simpa using ((List.prefix_append_right_inj _).1 hs).sublist.count_le '\x7d'
      have opened : (textOf lines).toList.count '\x7b' = entered := h.opened
      have closed : (textOf lines).toList.count '\x7d' + depth = entered := h.closed
      rw [List.count_append, List.count_append]
      omega
  indented before line' after hs := by
    rcases List.eq_nil_or_concat after with rfl | ⟨after, last, rfl⟩
    · obtain ⟨rfl, same⟩ := List.append_inj' hs rfl
      obtain rfl := List.singleton_inj.1 same
      intro nonempty
      have opened := h.opened
      have closed := h.closed
      constructor
      · rw [braces_append_singleton (by decide)]
        omega
      · have blocks : braces '\x7b' lines - braces '\x7d' (lines ++ [line]) =
            depth - line.toList.count '\x7d' := by
          rw [braces_append_singleton (by decide)]
          omega
        rw [blocks]
        exact spaces nonempty
    · have hs' : lines ++ [line] = (before ++ line' :: after) ++ [last] := by simpa using hs
      exact h.indented before line' after (List.append_inj' hs' rfl).1

theorem blank (h : Nested continuations lines entered depth) :
    Nested continuations (lines ++ [""]) entered depth :=
  h.append (by decide) (Nat.zero_le _) fun nonempty => absurd rfl nonempty

/-- A line with some content, indented by the blocks that are open there. -/
theorem content (h : Nested continuations lines entered depth) {content : String}
    (noBreak : '\n' ∉ content.toList) (first : content.toList.head? ≠ some ' ')
    (few : content.toList.count '\x7d' ≤ depth) :
    Nested continuations
      (lines ++ [indent (depth - content.toList.count '\x7d' +
        if content ∈ continuations then 1 else 0) content])
      (entered + content.toList.count '\x7b')
      (depth - content.toList.count '\x7d' + content.toList.count '\x7b') := by
  generalize inside : depth - content.toList.count '\x7d' +
    (if content ∈ continuations then 1 else 0) = inner
  have opens : (indent inner content).toList.count '\x7b' = content.toList.count '\x7b' :=
    count_indent (by decide)
  have closes : (indent inner content).toList.count '\x7d' = content.toList.count '\x7d' :=
    count_indent (by decide)
  rw [← closes] at few
  rw [← opens, ← closes]
  refine h.append (newline_not_mem_indent noBreak) few fun _ => ?_
  rw [leadingSpaces_indent first, unindented_indent first, closes, ← inside]
  split <;> omega

end Nested

/-! ## One step -/

/-- The content is one line without braces, and does not begin with a space. -/
structure Plain (content : String) : Prop where
  noMarks : ∀ c ∈ layoutMarks, c ∉ content.toList
  first : content.toList.head? ≠ some ' '

namespace Plain

variable {content : String} (h : Plain content)

include h

theorem noBreak : '\n' ∉ content.toList :=
  h.noMarks '\n' (by decide)

theorem count_openingBrace : content.toList.count '\x7b' = 0 :=
  List.count_eq_zero.2 (h.noMarks '\x7b' (by decide))

theorem count_closingBrace : content.toList.count '\x7d' = 0 :=
  List.count_eq_zero.2 (h.noMarks '\x7d' (by decide))

end Plain

/-- A line more, in as many blocks. -/
theorem Nested.plain {continuations lines : List String} {entered depth : Nat}
    (h : Nested continuations lines entered depth) {content : String} (plain : Plain content) :
    Nested continuations
      (lines ++ [indent (depth + if content ∈ continuations then 1 else 0) content])
      entered depth := by
  have step := h.content plain.noBreak plain.first (by simp [plain.count_closingBrace])
  simpa only [plain.count_closingBrace, plain.count_openingBrace, Nat.sub_zero, Nat.add_zero]
    using step

/-- What the step writes is plain, and indented by four spaces if it is to be indented once more. -/
def WriterStep.Regular (continuations : List String) : WriterStep → Prop
  | line s => ∃ content, Plain content ∧
      s = (if content ∈ continuations then "    " else "") ++ content
  | enter header => Plain header ∧ header ∉ continuations
  | blankLine | leave => True

theorem WriterStep.regular_line {continuations : List String} {content : String}
    (plain : Plain content) (other : content ∉ continuations) :
    Regular continuations (.line content) :=
  ⟨content, plain, by rw [if_neg other, String.empty_append]⟩

/-- The lines of the text are nested in its blocks. -/
def IndentedText.NestsWell (continuations : List String) (entered : Nat) (t : IndentedText) :
    Prop :=
  ∃ lines, t.text = textOf lines ∧ Nested continuations lines entered t.depth

namespace IndentedText.NestsWell

variable {continuations : List String} {t : IndentedText} {entered : Nat}

theorem empty : NestsWell continuations 0 .empty :=
  ⟨[], rfl, .nil⟩

/-- Lines more, after which other blocks are open. -/
theorem extend {lines more : List String} (text : t.text = textOf lines) {depth : Nat}
    (h : Nested continuations (lines ++ more) entered depth) :
    NestsWell continuations entered (t.extend more depth) :=
  ⟨lines ++ more, by rw [IndentedText.extend, text, textOf_append], h⟩

theorem blankLine (h : NestsWell continuations entered t) :
    NestsWell continuations entered t.blankLine := by
  obtain ⟨lines, text, nested⟩ := h
  rw [blankLine_eq]
  exact extend text nested.blank

theorem line (h : NestsWell continuations entered t) {content : String} (plain : Plain content) :
    NestsWell continuations entered
      (t.line ((if content ∈ continuations then "    " else "") ++ content)) := by
  obtain ⟨lines, text, nested⟩ := h
  have indented : indent t.depth ((if content ∈ continuations then "    " else "") ++ content) =
      indent (t.depth + if content ∈ continuations then 1 else 0) content := by
    split
    · exact indent_indented
    · rw [String.empty_append, Nat.add_zero]
  rw [line_eq, indented]
  exact extend text (nested.plain plain)

variable (regular : ∀ content ∈ continuations, Plain content)

include regular

theorem enter (h : NestsWell continuations entered t) {header : String} (plain : Plain header)
    (other : header ∉ continuations) :
    NestsWell continuations (entered + 1) (t.enter header) := by
  obtain ⟨lines, text, nested⟩ := h
  have brace : "\x7b" ∉ continuations := fun mem => by
    have none := (regular _ mem).count_openingBrace
    simp at none
  have first := nested.plain plain
  rw [if_neg other, Nat.add_zero] at first
  have second := first.content (by decide : '\n' ∉ "\x7b".toList) (by decide) (Nat.zero_le _)
  rw [if_neg brace] at second
  have written : t.enter header =
      t.extend [indent t.depth header, indent t.depth "\x7b"] (t.depth + 1) :=
    foldl_enter t [header]
  rw [List.append_assoc] at second
  rw [written]
  exact extend text second

theorem leave (h : NestsWell continuations entered t) (inside : 0 < t.depth) :
    NestsWell continuations entered t.leave := by
  obtain ⟨lines, text, nested⟩ := h
  have brace : "\x7d" ∉ continuations := fun mem => by
    have none := (regular _ mem).count_closingBrace
    simp at none
  have step := nested.content (by decide : '\n' ∉ "\x7d".toList) (by decide) inside
  rw [if_neg brace] at step
  have written : t.leave = t.extend [indent (t.depth - 1) "\x7d"] (t.depth - 1) :=
    foldl_leave t [""] (Nat.succ_pred_eq_of_pos inside).symm
  rw [written]
  exact extend text step

theorem step (h : NestsWell continuations entered t) {step : WriterStep}
    (ok : step.Regular continuations) (inside : step = .leave → 0 < t.depth) :
    NestsWell continuations (entered + if step.isEnter then 1 else 0) (step.apply t) := by
  cases step with
  | line s =>
    obtain ⟨content, plain, rfl⟩ := ok
    exact h.line plain
  | blankLine => exact h.blankLine
  | enter header => exact h.enter regular ok.1 ok.2
  | leave => exact h.leave regular (inside rfl)

/-- Steps that leave only open blocks keep the invariant. -/
theorem run (h : NestsWell continuations entered t) {steps : List WriterStep} {depth' : Nat}
    (leads : Leads t.depth steps depth') (ok : ∀ step ∈ steps, step.Regular continuations) :
    NestsWell continuations (entered + steps.countP (·.isEnter)) (steps.foldl apply t) := by
  induction steps generalizing t entered with
  | nil => exact h
  | cons first steps ih =>
    obtain ⟨inside, leads⟩ := leads.step
    obtain ⟨ok, others⟩ := List.forall_mem_cons.1 ok
    rw [List.countP_cons, Nat.add_comm (steps.countP _), ← Nat.add_assoc]
    exact ih (h.step regular ok inside) leads others

end IndentedText.NestsWell

/-! ## Units -/

/-- The contents of the lines of the accessor after the first. -/
def ResolvedField.continuations (field : ResolvedField) : List String :=
  [s!"? ({field.fieldName} = {field.lookupCall})", s!": {field.fieldName};"]

theorem ResolvedField.accessorLines_eq_cons (field : ResolvedField) :
    field.accessorLines =
      s!"private {field.fieldType.display} {field.propertyName} => {field.fieldName} is null" ::
        field.continuations.map ("    " ++ ·) := by
  simp [accessorLines, continuations, toString, ← String.append_assoc]

namespace OwnerGroup

/-- The contents of the lines that are indented once more than the blocks around them. -/
def continuations (group : OwnerGroup) : List String :=
  group.fields.flatMap (·.continuations)

variable {group : OwnerGroup}

theorem first_of_mem_continuations {content : String} (h : content ∈ group.continuations) :
    content.toList.head? = some '?' ∨ content.toList.head? = some ':' := by
  obtain ⟨field, -, h⟩ := List.mem_flatMap.1 h
  simp only [ResolvedField.continuations, List.mem_cons, List.not_mem_nil, or_false] at h
  rcases h with rfl | rfl
  · exact .inl (by simp [toString])
  · exact .inr (by simp [toString])

theorem first_of_mem_headers {header : String} (h : header ∈ group.headers) :
    header.toList.head? = some 'n' ∨ header.toList.head? = some 'p' := by
  simp only [headers, List.mem_append, List.mem_map, List.mem_singleton] at h
  rcases h with (⟨name, -, rfl⟩ | ⟨name, -, rfl⟩) | rfl
  · exact .inl (by simp)
  · exact .inr (by simp)
  · exact .inr (by simp)

theorem not_mem_continuations {content : String} {c : Char}
    (first : content.toList.head? = some c) (other : c ∉ ['?', ':']) :
    content ∉ group.continuations := by
  intro h
  have firsts := first_of_mem_continuations h
  rw [first] at firsts
  simp only [Option.some.injEq] at firsts
  exact other (by simpa using firsts)

theorem countP_isEnter_steps (group : OwnerGroup) :
    group.steps.countP (·.isEnter) = group.headers.length := by
  have accessors : (accessorSteps group.fields).countP (·.isEnter) = 0 := by
    rw [List.countP_eq_zero]
    intro step h
    rcases mem_accessorSteps h with rfl | ⟨-, -, line, -, rfl⟩ <;> exact Bool.false_ne_true
  have leaves : (group.headers.map fun _ => WriterStep.leave).countP (·.isEnter) = 0 := by
    rw [List.countP_eq_zero, List.forall_mem_map]
    exact fun _ _ => Bool.false_ne_true
  have entered : (group.headers.map .enter).countP isEnter = group.headers.length := by
    rw [List.countP_map]
    exact List.countP_eq_length.2 fun _ _ => rfl
  rw [steps, List.countP_cons, List.countP_append, List.countP_append, accessors, leaves, entered]
  rfl

section Free

variable (free : group.FreeOf layoutMarks)

include free

theorem plain_continuations : ∀ content ∈ group.continuations, Plain content := by
  intro content h
  constructor
  · obtain ⟨field, hf, hc⟩ := List.mem_flatMap.1 h
    have line : "    " ++ content ∈ field.accessorLines := by
      rw [field.accessorLines_eq_cons]
      exact List.mem_cons_of_mem _ (List.mem_map_of_mem hc)
    intro c mark mem
    refine free.accessorLines mark mark hf _ line ?_
    rw [String.toList_append]
    exact List.mem_append_right _ mem
  · rcases first_of_mem_continuations h with first | first <;> simp [first]

theorem plain_headers : ∀ header ∈ group.headers, Plain header := by
  intro header h
  constructor
  · exact fun c mark => free.headers mark mark header h
  · rcases first_of_mem_headers h with first | first <;> simp [first]

theorem regular_of_mem_accessorLines {field : ResolvedField} (hf : field ∈ group.fields)
    {line : String} (hl : line ∈ field.accessorLines) :
    Regular group.continuations (.line line) := by
  have noMarks : ∀ c ∈ layoutMarks, c ∉ line.toList :=
    fun c mark => free.accessorLines mark mark hf line hl
  rw [field.accessorLines_eq_cons, List.mem_cons, List.mem_map] at hl
  rcases hl with declaration | ⟨content, hc, rfl⟩
  · have first : line.toList.head? = some 'p' := by simp [declaration, toString]
    exact regular_line ⟨noMarks, by simp [first]⟩ (not_mem_continuations first (by decide))
  · have continued : content ∈ group.continuations := List.mem_flatMap.2 ⟨field, hf, hc⟩
    exact ⟨content, plain_continuations free content continued, by rw [if_pos continued]⟩

theorem regular_steps : ∀ step ∈ group.steps, step.Regular group.continuations := by
  rw [steps, List.forall_mem_cons]
  simp only [List.forall_mem_append, List.forall_mem_map]
  refine ⟨?_, ⟨?_, ?_⟩, fun _ _ => trivial⟩
  · have plain : Plain "// <auto-generated/>" := ⟨by simp [layoutMarks], by decide⟩
    exact regular_line plain (not_mem_continuations rfl (by decide))
  · intro header hh
    refine ⟨plain_headers free header hh, ?_⟩
    rcases first_of_mem_headers hh with first | first
    · exact not_mem_continuations first (by decide)
    · exact not_mem_continuations first (by decide)
  · intro step h
    rcases mem_accessorSteps h with rfl | ⟨field, hf, line, hl, rfl⟩
    · trivial
    · exact regular_of_mem_accessorLines free hf hl

end Free

/-- **The blocks of a unit nest well.** For a group with fields, and without braces or line breaks
in the names and types that its unit shows: the text has as many opening and as many closing braces
as there are blocks, and no prefix has more closing ones. Every line that is not blank is indented
by four spaces for each block that is open there, where a block that the line closes is no longer
open, and by four more if it continues an accessor. The writer's count of open blocks is never 0
when a block is left, and it is 0 in the end. -/
theorem well_nested (nonempty : group.fields ≠ []) (free : group.FreeOf layoutMarks) :
    let blocks :=
      group.owner.namespaceName.toList.length + group.owner.containingTypes.length + 1
    ∃ source, group.unit? = some ⟨group.owner.unitFileName, source⟩ ∧
      source.toList.count '\x7b' = blocks ∧ source.toList.count '\x7d' = blocks ∧
      (∀ start, start <+: source.toList → start.count '\x7d' ≤ start.count '\x7b') ∧
      (∀ before line after, linesOf source = before ++ line :: after → line ≠ "" →
        IndentedAfter group.continuations before line) ∧
      group.write .empty = ⟨source, 0⟩ ∧
      group.write .empty = group.steps.foldl apply .empty ∧
      ∀ before after, group.steps = before ++ .leave :: after →
        0 < (before.foldl apply .empty).depth := by
  intro blocks
  have leads : Leads IndentedText.empty.depth group.steps 0 := group.leads_steps
  obtain ⟨lines, text, nested⟩ :=
    NestsWell.empty.run (plain_continuations free) leads (regular_steps free)
  rw [Nat.zero_add, countP_isEnter_steps, leads.depth_foldl] at nested
  have headers : group.headers.length = blocks := by
    simp [blocks, OwnerGroup.headers, Nat.add_assoc]
  obtain ⟨field, mem⟩ := List.exists_mem_of_ne_nil _ nonempty
  have unit : group.unit? = some ⟨group.owner.unitFileName, textOf lines⟩ := by
    rw [unit?_of_mem mem, ← text_write, write_eq_foldl, text]
  refine ⟨textOf lines, unit, nested.opened.trans headers, nested.closed.trans headers,
    nested.prefixes, ?_, ?_, group.write_eq_foldl _, ?_⟩
  · rw [linesOf_textOf nested.noBreaks]
    exact nested.blank.indented
  · rw [write_eq_foldl, ← text, ← leads.depth_foldl]
  · intro before after same
    rw [same] at leads
    exact leads.depth_pos

/-- Four blocks: a namespace, two containing types and the owner. -/
theorem well_nested_in_two_types :
    let owner : NamedType := ⟨1, "Hinge", some "Game.Doors", ["House", "Door"]⟩
    let group : OwnerGroup :=
      ⟨owner, [⟨"_bolts", owner, .array (.named "Bolt"), ⟨2⟩⟩, ⟨"_", owner, .named "Frame", ⟨4⟩⟩]⟩
    ∃ source, group.unit? = some ⟨"Game.Doors.House.Door.Hinge.g.cs", source⟩ ∧
      source.toList.count '\x7b' = 4 ∧ source.toList.count '\x7d' = 4 ∧
      group.write .empty = ⟨source, 0⟩ := by
  intro owner group
  have free : group.FreeOf layoutMarks := by
    constructor <;> simp [group, owner, layoutMarks, NamedType.path, TypeRef.display]
  obtain ⟨source, unit, opening, closing, -, -, written, -⟩ :=
    well_nested (List.cons_ne_nil _ _) free
  have name : group.owner.unitFileName = "Game.Doors.House.Door.Hinge.g.cs" := by decide +kernel
  exact ⟨source, name ▸ unit, opening, closing, written⟩

end OwnerGroup

end HierarchyAccessors
