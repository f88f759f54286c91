import HierarchyAccessors.Text.Blank

/-!
# What trimming leaves

Trimming leaves what stands between the white space at both ends (`trimmed_trim`), and nothing else
is left by it (`trim_eq_of_trimmed`). It stops at a character that is not white space: what stands
before that is touched at its start only, and what stands behind it at its end only (`trim_append`).
-/

namespace HierarchyAccessors.Text

/-- All characters are white space. -/
def AllBlank (text : String) : Prop :=
  ∀ c ∈ text.toList, isBlank c = true

instance (text : String) : Decidable (AllBlank text) :=
  decidable_of_iff (text.toList.all isBlank = true) List.all_eq_true

/-- The text neither starts nor ends with white space. -/
structure Tight (text : String) : Prop where
  first : ∀ c ∈ text.toList.head?, isBlank c = false
  last : ∀ c ∈ text.toList.getLast?, isBlank c = false

instance (text : String) : Decidable (Tight text) :=
  decidable_of_iff
    (text.toList.head?.all (!isBlank ·) = true ∧ text.toList.getLast?.all (!isBlank ·) = true)
    (by simpa [Option.all_eq_true] using ⟨fun h => ⟨h.1, h.2⟩, fun h => ⟨h.first, h.last⟩⟩)

/-- What is left of a text without the white space at both ends. -/
structure Trimmed (text core : String) : Prop where
  around : ∃ front back, AllBlank front ∧ AllBlank back ∧ text = front ++ core ++ back
  tight : Tight core

/-! ## The two ends -/

theorem trimStart_eq_self {cs : List Char} (first : ∀ c ∈ cs.head?, isBlank c = false) :
    trimStart cs = cs := by
  cases cs with
  | nil => rfl
  | cons c cs => exact List.dropWhile_cons_of_neg (by simp [first c rfl])

theorem trimStart_append_of_blank {front cs : List Char} (blank : ∀ c ∈ front, isBlank c = true) :
    trimStart (front ++ cs) = trimStart cs :=
  List.dropWhile_append_of_pos blank

theorem head?_trimStart (cs : List Char) : ∀ c ∈ (trimStart cs).head?, isBlank c = false := by
  intro c first
  have stop := List.head?_dropWhile_not isBlank cs
  rwa [show (cs.dropWhile isBlank).head? = some c from first] at stop

/-- Trimming at the start stops at a character that is not white space. -/
theorem trimStart_append {before cs : List Char} {c : Char} (h : isBlank c = false) :
    ∃ left, trimStart (before ++ c :: cs) = left ++ c :: cs := by
  induction before with
  | nil => exact ⟨[], trimStart_eq_self (by simp [h])⟩
  | cons d before ih =>
    cases blank : isBlank d with
    | false => exact ⟨d :: before, trimStart_eq_self (by simp [blank])⟩
    | true =>
      obtain ⟨left, stops⟩ := ih
      exact ⟨left, (List.dropWhile_cons_of_pos blank).trans stops⟩

theorem trimEnd_eq_reverse (cs : List Char) : trimEnd cs = (trimStart cs.reverse).reverse := rfl

theorem trimEnd_eq_self {cs : List Char} (last : ∀ c ∈ cs.getLast?, isBlank c = false) :
    trimEnd cs = cs := by
  rw [trimEnd_eq_reverse, trimStart_eq_self (by simpa using last), List.reverse_reverse]

theorem getLast?_trimEnd (cs : List Char) : ∀ c ∈ (trimEnd cs).getLast?, isBlank c = false := by
  rw [trimEnd_eq_reverse, List.getLast?_reverse]
  exact head?_trimStart cs.reverse

theorem trimEnd_append_of_blank {cs back : List Char} (blank : ∀ c ∈ back, isBlank c = true) :
    trimEnd (cs ++ back) = trimEnd cs := by
  rw [trimEnd_eq_reverse, List.reverse_append, trimStart_append_of_blank (by simpa using blank),
    trimEnd_eq_reverse]

/-- Trimming at the end stops at a character that is not white space. -/
theorem trimEnd_append {before cs : List Char} (last : ∀ c ∈ before.getLast?, isBlank c = false) :
    trimEnd (before ++ cs) = before ++ trimEnd cs := by
  obtain ⟨back, blank, parts⟩ := exists_eq_trimEnd_append cs
  have stop : ∀ c ∈ (before ++ trimEnd cs).getLast?, isBlank c = false := by
    intro c mem
    rw [List.getLast?_append] at mem
    rcases Option.or_eq_some_iff.1 mem with mem | ⟨-, mem⟩
    · exact getLast?_trimEnd cs c mem
    · exact last c mem
  calc trimEnd (before ++ cs)
      = trimEnd (before ++ trimEnd cs ++ back) := by rw [List.append_assoc, ← parts]
    _ = before ++ trimEnd cs := by rw [trimEnd_append_of_blank blank, trimEnd_eq_self stop]

/-- What stands before a character that is not white space is trimmed at the start only, and what
stands behind it at the end only. -/
theorem trim_append {before cs : List Char} {c : Char} (h : isBlank c = false) :
    ∃ left, trim (before ++ c :: cs) = left ++ c :: trimEnd cs := by
  obtain ⟨left, stops⟩ := trimStart_append h
  refine ⟨left, ?_⟩
  rw [trim, stops, List.append_cons, trimEnd_append (by simp [h])]
  simp

/-! ## What is left -/

/-- There is one text that trimming can leave. -/
theorem trim_eq_of_trimmed {text core : String} (h : Trimmed text core) :
    trim text.toList = core.toList := by
  obtain ⟨front, back, blankFront, blankBack, rfl⟩ := h.around
  rw [String.toList_append, String.toList_append, List.append_assoc, trim,
    trimStart_append_of_blank blankFront]
  cases chars : core.toList with
  | nil =>
    have gone : trimStart back.toList = [] := by
      rw [← List.append_nil back.toList, trimStart_append_of_blank blankBack]
      rfl
    rw [List.nil_append, gone]
    rfl
  | cons c cs =>
    have first : isBlank c = false := h.tight.first c (by rw [chars]; rfl)
    rw [trimStart_eq_self (by simp [first]), trimEnd_append_of_blank blankBack, ← chars,
      trimEnd_eq_self h.tight.last]

theorem tight_trim (cs : List Char) : Tight (String.ofList (trim cs)) := by
  refine ⟨?_, ?_⟩
  · rw [String.toList_ofList, trim]
    cases start : trimStart cs with
    | nil => simp [trimEnd]
    | cons c rest =>
      have first : isBlank c = false := head?_trimStart cs c (by rw [start]; rfl)
      have kept : trimEnd ([c] ++ rest) = [c] ++ trimEnd rest := trimEnd_append (by simp [first])
      rw [← List.singleton_append, kept]
      simp [first]
  · rw [String.toList_ofList]
    exact getLast?_trimEnd _

theorem trimmed_trim (text : String) : Trimmed text (String.ofList (trim text.toList)) := by
  obtain ⟨front, back, blankFront, blankBack, parts⟩ := exists_eq_append_trim text.toList
  refine ⟨⟨String.ofList front, String.ofList back, ?_, ?_, ?_⟩, tight_trim _⟩
  · simpa [AllBlank] using blankFront
  · simpa [AllBlank] using blankBack
  · rw [← String.toList_inj]
    simpa using parts

end HierarchyAccessors.Text
