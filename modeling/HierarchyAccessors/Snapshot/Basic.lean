import HierarchyAccessors.Facts

/-!
# Snapshots of a compilation

A snapshot holds the source files of a compilation with the facts about their nodes, so that a
pass can run outside the host. Every node that facts may be about has an id of its own;
`Snapshot.repeated?` finds the first that has not.
-/

namespace HierarchyAccessors

/-- Source files in compilation order, and the facts about their nodes. -/
structure Snapshot where
  files : List SourceFile
  facts : FactTables

namespace Snapshot

/-- The ids of the nodes of all fields, in source order, each with the path of its file. -/
def nodeIds (snapshot : Snapshot) : List (NodeId × String) :=
  snapshot.files.flatMap fun file =>
    (file.fields.flatMap (·.nodeIds)).map fun id => (id, file.path)

/-- The first entry whose id stands in `seen` or in an earlier entry. -/
def firstRepeat? (seen : List NodeId) : List (NodeId × String) → Option (NodeId × String)
  | [] => none
  | (id, path) :: rest => if id ∈ seen then some (id, path) else firstRepeat? (id :: seen) rest

/-- The first node id that occurs again, with the path of the file where it does. -/
def repeated? (snapshot : Snapshot) : Option (NodeId × String) :=
  firstRepeat? [] snapshot.nodeIds

end Snapshot

end HierarchyAccessors
