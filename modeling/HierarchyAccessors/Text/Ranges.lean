/-!
# Sets of characters given by ranges of code points

The tables of this folder list the characters with a property as closed ranges of code points.
`inRanges_iff` says what membership in such a table means.
-/

namespace HierarchyAccessors.Text

/-- Whether the code point of `c` lies in one of the closed ranges. -/
def inRanges (ranges : List (Nat × Nat)) (c : Char) : Bool :=
  ranges.any fun range => range.1 ≤ c.toNat && c.toNat ≤ range.2

theorem inRanges_iff {ranges : List (Nat × Nat)} {c : Char} :
    inRanges ranges c ↔ ∃ range ∈ ranges, range.1 ≤ c.toNat ∧ c.toNat ≤ range.2 := by
  simp [inRanges]

end HierarchyAccessors.Text
