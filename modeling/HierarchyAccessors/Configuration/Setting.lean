/-!
# Settings

The value that a configuration layer supplies under a key. Only texts and switches are of use;
numbers, dates, lists and tables are all alike.
-/

namespace HierarchyAccessors

/-- A value of a configuration layer. -/
inductive Setting
  | text (s : String)
  | switch (b : Bool)
  | other
deriving DecidableEq

end HierarchyAccessors
