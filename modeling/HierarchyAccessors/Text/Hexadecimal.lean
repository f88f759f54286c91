/-!
# Hexadecimal digits

The values of hexadecimal digits in either case; reading a digit undoes writing it
(`hexDigit?_digitChar`).
-/

namespace HierarchyAccessors.Text

/-- The value of a hexadecimal digit. -/
def hexDigit? (c : Char) : Option Nat :=
  if c.isDigit then some (c.toNat - 0x30)
  else if 'a' ≤ c && c ≤ 'f' then some (c.toNat - 0x57)
  else if 'A' ≤ c && c ≤ 'F' then some (c.toNat - 0x37)
  else none

theorem hexDigit?_digitChar {n : Nat} (h : n < 16) : hexDigit? n.digitChar = some n := by
  have : ∀ i : Fin 16, hexDigit? i.val.digitChar = some i.val := by decide
  exact this ⟨n, h⟩

end HierarchyAccessors.Text
