import HierarchyAccessors.Configuration.Layers
import HierarchyAccessors.Disk.Basic
import HierarchyAccessors.Manifest

/-!
# The output directory

Units are written into a directory, and the manifest after them, so that a run that is interrupted
leaves no manifest that lists what is not there. Units that the manifest found in the directory
lists, and that are not produced any more, are removed in between.
-/

namespace HierarchyAccessors

/-- Why a run fails. -/
inductive RunError
  /-- No layer of the configuration names a snapshot. -/
  | missingSnapshot
  | config (e : ConfigError)
  /-- The snapshot file at the path is refused. -/
  | snapshot (path : String) (refusal : Snapshot.Refusal)
  /-- A disk operation on the path fails. -/
  | disk (path : String) (e : DiskError)
  /-- A strict run met so many diagnostics. -/
  | strict (count : Nat)
deriving DecidableEq

namespace RunError

/-- The message of the two errors that are the tool's own. -/
def message : RunError → String
  | missingSnapshot => "no snapshot given; pass --snapshot or set ACCESSORGEN_SNAPSHOT"
  | strict count => s!"strict mode: {count} diagnostic(s) recorded"
  | _ => ""

end RunError

/-- An action on a disk, which keeps what it has done when it fails. -/
abbrev RunM := ExceptT RunError (StateM Disk)

namespace RunM

/-- What an operation finds on the disk. -/
def look (path : String) (operation : Disk → Except DiskError α) : RunM α := do
  match operation (← get) with
  | .ok a => return a
  | .error e => throw (.disk path e)

/-- What an operation makes of the disk. -/
def change (path : String) (operation : Disk → Except DiskError Disk) : RunM Unit := do
  match operation (← get) with
  | .ok disk => set disk
  | .error e => throw (.disk path e)

end RunM

namespace OutputDirectory

/-! ## Opening -/

/-- Opens the directory, if there is one. -/
def openIfPresent (path : String) : RunM (Option Location) := do
  match (← get).openDirectory none path with
  | .ok here => return some here
  | .error .notFound => return none
  | .error e => throw (.disk path e)

/-- Makes the directory and the directories above it. -/
def make (path : String) : RunM Unit := do
  let (disk, result) := (← get).makeDirectories path
  set disk
  match result with
  | .ok _ => return ()
  | .error e => throw (.disk path e)

/-- Opens the directory, which is made if it is missing. -/
def openOrMake (path : String) : RunM Location := do
  match ← openIfPresent path with
  | some here => return here
  | none =>
    make path
    RunM.look path (·.openDirectory none path)

/-! ## The manifest -/

/-- The manifest in a directory. One that is missing or cannot be read counts as none. -/
def manifest? (disk : Disk) (here : Location) : Option Manifest := do
  let text ← (disk.readText here Manifest.fileName).toOption
  (Manifest.read text).toOption

/-- The manifest in the directory, if it has the given key and all units that it lists are still
there. -/
def intactManifest (path cacheKey : String) : RunM (Option Manifest) := do
  match ← openIfPresent path with
  | none => return none
  | some here =>
    let disk ← get
    return (manifest? disk here).filter fun manifest =>
      manifest.cacheKey == cacheKey && manifest.units.all (disk.isFile here ·)

/-! ## Writing -/

/-- Writes a file of the directory. -/
def putFile (path : String) (here : Location) (name text : String) : RunM Unit :=
  RunM.change (Path.join path name) (·.writeText here name text)

/-- Removes a file of the directory, which may be missing. -/
def removeFile (path : String) (here : Location) (name : String) : RunM Unit := do
  match (← get).removeFile here name with
  | .ok disk => set disk
  | .error .notFound => return ()
  | .error e => throw (.disk (Path.join path name) e)

/-- The units that the manifest lists and the output does not have. -/
def stale (manifest : Manifest) (output : Output) : List String :=
  manifest.units.filter fun name =>
    name != Manifest.fileName && !(output.units.map (·.name)).contains name

/-- Writes the units of the output, removes those of an earlier run that are not among them, and
writes the manifest. -/
def store (path cacheKey : String) (output : Output) : RunM Manifest := do
  let here ← openOrMake path
  let previous := manifest? (← get) here
  output.units.forM fun unit => putFile path here unit.name unit.source
  (previous.elim [] (stale · output)).forM fun name => removeFile path here name
  let manifest := Manifest.ofOutput cacheKey output
  putFile path here Manifest.fileName manifest.pretty
  return manifest

end OutputDirectory

end HierarchyAccessors
