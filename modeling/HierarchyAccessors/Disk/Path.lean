/-!
# Paths

A path is a text of names separated by slashes. Empty names and single dots lead nowhere, and two
dots lead one directory up. The parent and the file name of a path are found in its text alone.
-/

namespace HierarchyAccessors.Path

/-- The names of a path as they stand between its slashes. -/
def names (path : String) : List String :=
  (path.toList.splitOn '/').map String.ofList

/-- Whether the path starts at the root. -/
def isAbsolute (path : String) : Bool :=
  path.toList.head? = some '/'

/-- The longest name that a directory can hold, in bytes. -/
def maxName : Nat := 255

/-- A path must be shorter than this, in bytes. -/
def maxLength : Nat := 4096

/-! ## Parent and file name -/

/-- The path, reversed, without slashes and single dots at its end. A dot that is the whole path
and the slash of the root stay. -/
def trimReversed : List Char → List Char
  | [] => []
  | ['/'] => ['/']
  | '/' :: cs => trimReversed cs
  | '.' :: '/' :: cs => trimReversed ('/' :: cs)
  | cs => cs

/-- The last name of the path, unless it is the root, or ends in a name that leads elsewhere. -/
def fileName? (path : String) : Option String :=
  let name := (trimReversed path.toList.reverse).takeWhile (· != '/')
  let name := String.ofList name.reverse
  if name = "" ∨ name = "." ∨ name = ".." then none else some name

/-- The path without its last name. -/
def parent (path : String) : String :=
  let before := (trimReversed path.toList.reverse).dropWhile (· != '/')
  String.ofList (trimReversed before).reverse

/-- The path with a name after it; an absolute name stands for itself. -/
def join (path name : String) : String :=
  if isAbsolute name then name
  else if path = "" ∨ path.toList.getLast? = some '/' then path ++ name
  else path ++ "/" ++ name

end HierarchyAccessors.Path
