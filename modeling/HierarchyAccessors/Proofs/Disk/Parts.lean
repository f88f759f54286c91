import HierarchyAccessors.Disk.Path
import Mathlib.Data.List.TakeWhile

/-!
# The parts of a path

The parent of a path is found in its text, where slashes and dots are cut off that lead nowhere. It
spells the parts before the last one, perhaps in another way than the path does (`parent_cases`).
-/

namespace HierarchyAccessors.Path

/-! ## Parts -/

theorem names_append_slash (before after : List Char) :
    names (String.ofList (before ++ '/' :: after)) =
      names (String.ofList before) ++ names (String.ofList after) := by
  simp only [names, String.toList_ofList, List.splitOn_append_cons_self, List.map_append]

theorem names_of_noSlash {name : String} (h : '/' ∉ name.toList) : names name = [name] := by
  rw [names, List.splitOn_eq_singleton h, List.map_singleton, String.ofList_toList]

theorem names_ofList {last : List Char} (h : '/' ∉ last) :
    names (String.ofList last) = [String.ofList last] :=
  names_of_noSlash (by rwa [String.toList_ofList])

/-- A path is its own last part, or has its last part after a slash. -/
theorem noSlash_or_eq_append (path : String) :
    '/' ∉ path.toList ∨ ∃ before last : List Char,
      '/' ∉ last ∧ path = String.ofList (before ++ '/' :: last) := by
  by_cases slash : '/' ∈ path.toList.reverse
  · obtain ⟨last, before, eq, noSlash⟩ := List.eq_append_cons_of_mem slash
    refine .inr ⟨before.reverse, last.reverse, by simpa using noSlash, ?_⟩
    rw [← String.ofList_toList (s := path), ← List.reverse_reverse path.toList, eq]
    simp
  · exact .inl (by simpa using slash)

theorem names_ne_nil (path : String) : names path ≠ [] := by
  rcases noSlash_or_eq_append path with h | ⟨before, last, noSlash, rfl⟩
  · simp [names_of_noSlash h]
  · rw [names_append_slash]
    simp [names_ofList noSlash]

theorem names_eq_concat (path : String) : ∃ before last, names path = before ++ [last] :=
  ⟨_, _, (List.dropLast_concat_getLast (names_ne_nil path)).symm⟩

/-- A path is its last part, or ends in it behind a slash, before which the other parts stand. -/
theorem names_cases {path last : String} {before : List String}
    (parts : names path = before ++ [last]) :
    (before = [] ∧ path = last ∧ '/' ∉ last.toList) ∨
      ∃ cs ds : List Char, path = String.ofList (cs ++ '/' :: ds) ∧ '/' ∉ ds ∧
        before = names (String.ofList cs) ∧ last = String.ofList ds := by
  rcases noSlash_or_eq_append path with noSlash | ⟨cs, ds, noSlash, rfl⟩
  · rw [names_of_noSlash noSlash, ← List.nil_append [path]] at parts
    obtain ⟨rfl, same⟩ := List.append_inj' parts rfl
    obtain rfl := List.singleton_inj.1 same
    exact .inl ⟨rfl, rfl, noSlash⟩
  · rw [names_append_slash, names_ofList noSlash] at parts
    obtain ⟨rfl, same⟩ := List.append_inj' parts rfl
    obtain rfl := List.singleton_inj.1 same
    exact .inr ⟨cs, ds, rfl, noSlash, rfl, rfl⟩

/-! ## The parent of a path -/

/-- What is cut off stood at the end. -/
theorem trimReversed_suffix (cs : List Char) : trimReversed cs <:+ cs := by
  fun_induction trimReversed cs with
  | case1 => exact List.suffix_rfl
  | case2 => exact List.suffix_rfl
  | case3 cs _ ih => exact ih.trans (List.suffix_cons _ _)
  | case4 cs ih => exact ih.trans (List.suffix_cons _ _)
  | case5 cs => exact List.suffix_rfl

/-- The path begins as it did. -/
theorem getLast?_trimReversed (cs : List Char) : (trimReversed cs).getLast? = cs.getLast? := by
  fun_induction trimReversed cs with
  | case1 => rfl
  | case2 => rfl
  | case3 cs more ih =>
    cases cs with
    | nil => exact absurd rfl more
    | cons c cs => rw [ih, List.getLast?_cons_cons]
  | case4 cs ih => rw [ih, List.getLast?_cons_cons]
  | case5 cs => rfl

/-- Nothing is cut off after a part that leads somewhere. -/
theorem trimReversed_of_noSlash {last : List Char} (noSlash : '/' ∉ last) (more : List Char) :
    last ≠ [] → last ≠ ['.'] → trimReversed (last ++ '/' :: more) = last ++ '/' :: more := by
  intro ne_nil ne_dot
  match last with
  | [] => exact absurd rfl ne_nil
  | [c] =>
    have hc : c ≠ '/' := fun eq => noSlash (by simp [eq])
    have hdot : c ≠ '.' := fun eq => ne_dot (by rw [eq])
    unfold trimReversed
    split <;> simp_all
  | c :: d :: last =>
    have hc : c ≠ '/' := fun eq => noSlash (by simp [eq])
    have hd : d ≠ '/' := fun eq => noSlash (by simp [eq])
    unfold trimReversed
    split <;> simp_all

theorem parent_of_noSlash {name : String} (noSlash : '/' ∉ name.toList) : parent name = "" := by
  have reversed : '/' ∉ name.toList.reverse := by simpa using noSlash
  have whole : trimReversed name.toList.reverse = name.toList.reverse := by
    unfold trimReversed
    split <;> simp_all
  have nothing : name.toList.reverse.dropWhile (· != '/') = [] := by
    rw [List.dropWhile_eq_nil_iff]
    intro c hc
    simp only [bne_iff_ne]
    rintro rfl
    exact reversed hc
  rw [parent, whole, nothing]
  rfl

/-- The parent is what stands before the last slash, without what leads nowhere. -/
theorem parent_append_slash (before : List Char) {last : List Char} (noSlash : '/' ∉ last)
    (ne_nil : last ≠ []) (ne_dot : last ≠ ['.']) :
    parent (String.ofList (before ++ '/' :: last)) =
      String.ofList (trimReversed ('/' :: before.reverse)).reverse := by
  have reversed : (before ++ '/' :: last).reverse = last.reverse ++ '/' :: before.reverse := by simp
  have inLast : ∀ c ∈ last.reverse, (c != '/') = true := by
    intro c hc
    simp only [bne_iff_ne]
    rintro rfl
    exact noSlash (List.mem_reverse.1 hc)
  rw [parent, String.toList_ofList, reversed,
    trimReversed_of_noSlash (by simpa using noSlash) _ (by simpa using ne_nil)
      (by simpa [List.reverse_eq_iff] using ne_dot),
    List.dropWhile_append_of_pos inLast, List.dropWhile_cons_of_neg (by simp)]

theorem parent_append_slash_ne_empty (before : List Char) {last : List Char} (noSlash : '/' ∉ last)
    (ne_nil : last ≠ []) (ne_dot : last ≠ ['.']) :
    parent (String.ofList (before ++ '/' :: last)) ≠ "" := by
  rw [parent_append_slash before noSlash ne_nil ne_dot]
  intro empty
  have nothing : trimReversed ('/' :: before.reverse) = [] := by
    simpa using congrArg String.toList empty
  have first := getLast?_trimReversed ('/' :: before.reverse)
  rw [nothing, List.getLast?_cons] at first
  cases first

/-- The parent of an absolute path is absolute, and that of another is not. -/
theorem isAbsolute_parent (before : List Char) {last : List Char} (noSlash : '/' ∉ last)
    (ne_nil : last ≠ []) (ne_dot : last ≠ ['.']) :
    isAbsolute (parent (String.ofList (before ++ '/' :: last))) =
      isAbsolute (String.ofList (before ++ '/' :: last)) := by
  rw [parent_append_slash before noSlash ne_nil ne_dot, isAbsolute, isAbsolute,
    String.toList_ofList, String.toList_ofList, List.head?_reverse, getLast?_trimReversed]
  cases before with
  | nil => rfl
  | cons c before =>
    rw [List.reverse_cons, ← List.cons_append, List.getLast?_concat]
    rfl

/-- A path has one part and no parent, or a parent that spells the parts before the last one,
perhaps in another way. -/
theorem parent_cases {path last : String} {before : List String}
    (parts : names path = before ++ [last]) (ne_empty : last ≠ "") (ne_dot : last ≠ ".") :
    (before = [] ∧ parent path = "" ∧ isAbsolute path = false) ∨
      ∃ cs, before = names (String.ofList cs) ∧ parent path ≠ "" ∧
        parent path = String.ofList (trimReversed ('/' :: cs.reverse)).reverse ∧
        isAbsolute (parent path) = isAbsolute path := by
  rcases names_cases parts with ⟨rfl, rfl, noSlash⟩ | ⟨cs, ds, rfl, noSlash, rfl, rfl⟩
  · refine .inl ⟨rfl, parent_of_noSlash noSlash, ?_⟩
    rw [isAbsolute, decide_eq_false_iff_not]
    intro first
    exact noSlash (List.mem_of_head? first)
  · have ne_nil : ds ≠ [] := by
      rintro rfl
      exact ne_empty rfl
    have notDot : ds ≠ ['.'] := by
      rintro rfl
      exact ne_dot rfl
    exact .inr ⟨cs, rfl, parent_append_slash_ne_empty cs noSlash ne_nil notDot,
      parent_append_slash cs noSlash ne_nil notDot, isAbsolute_parent cs noSlash ne_nil notDot⟩

/-- The parent stands at the beginning of the path. -/
theorem parent_prefix (path : String) : (parent path).toList <+: path.toList := by
  rw [parent, String.toList_ofList, ← List.reverse_suffix, List.reverse_reverse]
  exact (trimReversed_suffix _).trans ((List.dropWhile_suffix _).trans (trimReversed_suffix _))

/-- The last part stands at the end of the path. -/
theorem suffix_of_names {path last : String} {before : List String}
    (parts : names path = before ++ [last]) : last.toList <:+ path.toList := by
  rcases names_cases parts with ⟨-, rfl, -⟩ | ⟨cs, ds, rfl, -, -, rfl⟩
  · exact List.suffix_rfl
  · rw [String.toList_ofList, String.toList_ofList]
    exact (List.suffix_cons '/' ds).trans (List.suffix_append cs _)

end HierarchyAccessors.Path
