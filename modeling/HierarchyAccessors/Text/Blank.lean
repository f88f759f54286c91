import HierarchyAccessors.Text.Ranges

/-!
# White space around a text

Blank characters are those with Unicode's property `White_Space`. Trimming drops the blank
characters at both ends and nothing else (`exists_eq_append_trim`).
-/

namespace HierarchyAccessors.Text

/-- The code points with the property `White_Space`. -/
def blankRanges : List (Nat × Nat) :=
  [(0x9, 0xD), (0x20, 0x20), (0x85, 0x85), (0xA0, 0xA0), (0x1680, 0x1680), (0x2000, 0x200A),
   (0x2028, 0x2029), (0x202F, 0x202F), (0x205F, 0x205F), (0x3000, 0x3000)]

/-- Whether `c` is white space. -/
def isBlank (c : Char) : Bool :=
  inRanges blankRanges c

/-- Every character that is white space in ASCII is blank. -/
theorem isBlank_of_isWhitespace {c : Char} (h : c.isWhitespace) : isBlank c := by
  simp only [Char.isWhitespace, Bool.or_eq_true, decide_eq_true_eq] at h
  rcases h with (((rfl | rfl) | rfl) | rfl) <;> decide

/-- Drops the blank characters at the start. -/
def trimStart (cs : List Char) : List Char :=
  cs.dropWhile isBlank

/-- Drops the blank characters at the end. -/
def trimEnd (cs : List Char) : List Char :=
  (cs.reverse.dropWhile isBlank).reverse

/-- Drops the blank characters at both ends. -/
def trim (cs : List Char) : List Char :=
  trimEnd (trimStart cs)

theorem exists_eq_append_trimStart (cs : List Char) :
    ∃ front, (∀ c ∈ front, isBlank c) ∧ cs = front ++ trimStart cs :=
  ⟨cs.takeWhile isBlank, List.all_eq_true.1 List.all_takeWhile,
    List.takeWhile_append_dropWhile.symm⟩

theorem exists_eq_trimEnd_append (cs : List Char) :
    ∃ back, (∀ c ∈ back, isBlank c) ∧ cs = trimEnd cs ++ back := by
  obtain ⟨front, hblank, heq⟩ := exists_eq_append_trimStart cs.reverse
  refine ⟨front.reverse, by simpa using hblank, ?_⟩
  have := congrArg List.reverse heq
  simpa [trimEnd, trimStart] using this

theorem exists_eq_append_trim (cs : List Char) :
    ∃ front back, (∀ c ∈ front, isBlank c) ∧ (∀ c ∈ back, isBlank c) ∧
      cs = front ++ trim cs ++ back := by
  obtain ⟨front, hf, hcs⟩ := exists_eq_append_trimStart cs
  obtain ⟨back, hb, hstart⟩ := exists_eq_trimEnd_append (trimStart cs)
  refine ⟨front, back, hf, hb, ?_⟩
  rw [List.append_assoc, trim, ← hstart, ← hcs]

end HierarchyAccessors.Text
