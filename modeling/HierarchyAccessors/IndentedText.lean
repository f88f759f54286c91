/-!
# Indented text

A text that is written line by line, together with the number of blocks that are open at its end.
Every line is indented by four spaces for each open block; blank lines are not indented.
-/

namespace HierarchyAccessors

/-- A text that ends inside `depth` open blocks. -/
structure IndentedText where
  text : String
  depth : Nat
deriving DecidableEq

namespace IndentedText

def empty : IndentedText := ⟨"", 0⟩

/-- The white space before a line. -/
def indentation (depth : Nat) : String :=
  String.ofList (List.replicate (4 * depth) ' ')

def line (t : IndentedText) (s : String) : IndentedText :=
  { t with text := t.text ++ indentation t.depth ++ s ++ "\n" }

def blankLine (t : IndentedText) : IndentedText :=
  { t with text := t.text ++ "\n" }

/-- A header and an opening brace, each on a line of its own. -/
def enter (t : IndentedText) (header : String) : IndentedText :=
  let t := (t.line header).line "\x7b"
  { t with depth := t.depth + 1 }

/-- A closing brace, as far out as the header of its block. -/
def leave (t : IndentedText) : IndentedText :=
  { t with depth := t.depth - 1 }.line "\x7d"

end IndentedText

end HierarchyAccessors
