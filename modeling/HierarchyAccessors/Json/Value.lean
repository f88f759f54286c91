import HierarchyAccessors.Json.Tree

/-!
# Values to be written

A value is written without any white space (`compact`), or with one entry or item on each line,
indented by two spaces for every container around it (`pretty`). `Value.toTree` is the tree that
either text is read as.
-/

namespace HierarchyAccessors.Json

/-- A value to be written. The only numbers are integers. -/
inductive Value
  | null
  | bool (b : Bool)
  | integer (n : Int)
  | string (s : String)
  | array (items : List Value)
  | object (entries : List (String × Value))

namespace Value

/-- The literal of an integer. -/
def integerText (n : Int) : List Char :=
  if n < 0 then '-' :: Nat.toDigits 10 n.natAbs else Nat.toDigits 10 n.natAbs

/-- The literal of a truth value. -/
def boolText : Bool → List Char
  | true => ['t', 'r', 'u', 'e']
  | false => ['f', 'a', 'l', 's', 'e']

def nullText : List Char := ['n', 'u', 'l', 'l']

/-! ## Without white space -/

mutual

def compactText : Value → List Char
  | null => nullText
  | bool b => boolText b
  | integer n => integerText n
  | string s => encodeString s
  | array [] => ['[', ']']
  | array (v :: vs) => '[' :: (compactText v ++ compactItems vs)
  | object [] => ['\x7b', '\x7d']
  | object ((key, v) :: entries) =>
    '\x7b' :: (encodeString key ++ ':' :: (compactText v ++ compactEntries entries))

/-- The items after the first, and the closing bracket. -/
def compactItems : List Value → List Char
  | [] => [']']
  | v :: vs => ',' :: (compactText v ++ compactItems vs)

/-- The entries after the first, and the closing brace. -/
def compactEntries : List (String × Value) → List Char
  | [] => ['\x7d']
  | (key, v) :: entries =>
    ',' :: (encodeString key ++ ':' :: (compactText v ++ compactEntries entries))

end

/-! ## One item a line -/

/-- A line break, and the indentation inside `depth` containers. -/
def newline (depth : Nat) : List Char :=
  '\n' :: List.replicate (2 * depth) ' '

mutual

/-- The text of a value that stands inside `depth` containers. -/
def prettyText (depth : Nat) : Value → List Char
  | null => nullText
  | bool b => boolText b
  | integer n => integerText n
  | string s => encodeString s
  | array [] => ['[', ']']
  | array (v :: vs) =>
    '[' :: (newline (depth + 1) ++ prettyText (depth + 1) v ++ prettyItems depth vs)
  | object [] => ['\x7b', '\x7d']
  | object ((key, v) :: entries) =>
    '\x7b' :: (newline (depth + 1) ++ encodeString key ++ [':', ' '] ++ prettyText (depth + 1) v ++
      prettyEntries depth entries)

/-- The items after the first, and the closing bracket. -/
def prettyItems (depth : Nat) : List Value → List Char
  | [] => newline depth ++ [']']
  | v :: vs => ',' :: (newline (depth + 1) ++ prettyText (depth + 1) v ++ prettyItems depth vs)

/-- The entries after the first, and the closing brace. -/
def prettyEntries (depth : Nat) : List (String × Value) → List Char
  | [] => newline depth ++ ['\x7d']
  | (key, v) :: entries =>
    ',' :: (newline (depth + 1) ++ encodeString key ++ [':', ' '] ++ prettyText (depth + 1) v ++
      prettyEntries depth entries)

end

/-- The text without white space. -/
def compact (v : Value) : String :=
  String.ofList v.compactText

/-- The text with one item a line. -/
def pretty (v : Value) : String :=
  String.ofList (v.prettyText 0)

/-! ## As a tree -/

mutual

/-- The tree that the written value is read as. -/
def toTree : Value → Tree
  | null => .null
  | bool b => .bool b
  | integer n => .number (.ofInt n)
  | string s => .string (.closed (encodeRaw s.toList))
  | array items => .array (toTrees items) .closed
  | object entries => .object (toTreeEntries entries) .closed

def toTrees : List Value → List Tree
  | [] => []
  | v :: vs => toTree v :: toTrees vs

def toTreeEntries : List (String × Value) → List (Quoted × Tree)
  | [] => []
  | (key, v) :: entries => (.closed (encodeRaw key.toList), toTree v) :: toTreeEntries entries

end

end Value

end HierarchyAccessors.Json
