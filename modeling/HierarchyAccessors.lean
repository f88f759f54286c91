import HierarchyAccessors.Accessor
import HierarchyAccessors.Compilation
import HierarchyAccessors.Main
import HierarchyAccessors.Proofs.Emission
import HierarchyAccessors.Proofs.UnitNames
import HierarchyAccessors.Proofs.Accounting
import HierarchyAccessors.Proofs.Json.Literals
import HierarchyAccessors.Proofs.Json.Integers
import HierarchyAccessors.Proofs.Json.Magnitude
import HierarchyAccessors.Proofs.Json.Written
import HierarchyAccessors.Proofs.Json.WrittenTree
import HierarchyAccessors.Proofs.Json.Reading
import HierarchyAccessors.Proofs.Snapshot.RoundTrip
import HierarchyAccessors.Proofs.Disk.Files
import HierarchyAccessors.Proofs.CacheKeys
import HierarchyAccessors.Proofs.Planning
import HierarchyAccessors.Proofs.Storing
import HierarchyAccessors.Proofs.History
import HierarchyAccessors.Proofs.Storing.Update
import HierarchyAccessors.Proofs.Storing.Failure
import HierarchyAccessors.Proofs.Collisions
import HierarchyAccessors.Proofs.Independence
import HierarchyAccessors.Proofs.CleanPass
import HierarchyAccessors.Proofs.Queries
import HierarchyAccessors.Proofs.Rearrangement
import HierarchyAccessors.Proofs.GeneratedCall
import HierarchyAccessors.Proofs.Memoisation
import HierarchyAccessors.Proofs.DryRun
import HierarchyAccessors.Proofs.Appending
import HierarchyAccessors.Proofs.Json.Spelling
import HierarchyAccessors.Proofs.Json.WholeTree
import HierarchyAccessors.Proofs.Json.Accepted
import HierarchyAccessors.Proofs.Json.Reordering
import HierarchyAccessors.Proofs.Json.Steady
import HierarchyAccessors.Proofs.Json.Legible
import HierarchyAccessors.Proofs.Json.Keyed
import HierarchyAccessors.Proofs.Snapshot.Reordering
import HierarchyAccessors.Proofs.Snapshot.Unfamiliar
import HierarchyAccessors.Proofs.Unwritten
import HierarchyAccessors.Proofs.Snapshot.Repetition
import HierarchyAccessors.Proofs.Compilation.Ledger
import HierarchyAccessors.Proofs.Compilation.Placing
import HierarchyAccessors.Proofs.Compilation.Files
import HierarchyAccessors.Proofs.Compilation.Layout
import HierarchyAccessors.Proofs.Compilation.Accessors
import HierarchyAccessors.Proofs.Notices
import HierarchyAccessors.Proofs.Contents
import HierarchyAccessors.Proofs.Nesting
import HierarchyAccessors.Proofs.MarkedFields
import HierarchyAccessors.Proofs.AccessorNames
import HierarchyAccessors.Proofs.Json.Prefixes
import HierarchyAccessors.Proofs.Storing.PartlyWritten
import HierarchyAccessors.Proofs.Layering
import HierarchyAccessors.Proofs.Guards
import HierarchyAccessors.Proofs.MarkerNames
import HierarchyAccessors.Proofs.NumberSearch
import HierarchyAccessors.Proofs.SelfReference
