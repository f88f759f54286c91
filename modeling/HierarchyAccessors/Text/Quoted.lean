import HierarchyAccessors.Text.Visible

/-!
# Texts quoted for a reader

A quoted text stands between double quotes. Inside, the quote, the backslash, line breaks, tabs
and the null character have short escapes, every other character that does not show by itself is
written as its code point in braces, and the rest stands as it is.
-/

namespace HierarchyAccessors.Text

/-- One character inside a quoted text. -/
def quotedChar (c : Char) : List Char :=
  if c = '\x00' then ['\\', '0']
  else if c = '\t' then ['\\', 't']
  else if c = '\r' then ['\\', 'r']
  else if c = '\n' then ['\\', 'n']
  else if c = '\\' then ['\\', '\\']
  else if c = '"' then ['\\', '"']
  else if isVisible c then [c]
  else "\\u\x7b".toList ++ Nat.toDigits 16 c.toNat ++ ['}']

/-- The text between double quotes, with every hidden character escaped. -/
def quoted (s : String) : String :=
  String.ofList ('"' :: s.toList.flatMap quotedChar ++ ['"'])

end HierarchyAccessors.Text
