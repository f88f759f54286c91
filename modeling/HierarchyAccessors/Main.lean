import HierarchyAccessors.Run

/-!
# The executable

Gathers the arguments, the environment and the part of the disk that a run may look at, runs the
program on them, and carries out what has become of the disk.
-/

namespace HierarchyAccessors.Executable

/-- The variables of the process, as far as they are text. -/
def readEnvironment : IO Environment := do
  let bytes ← IO.FS.readBinFile "/proc/self/environ"
  let entries := (bytes.toList.splitOn 0).filterMap fun entry => (Disk.textOf entry).toOption
  return ⟨entries.filterMap fun entry =>
    match entry.toList.dropWhile (· != '=') with
    | [] => none
    | _ :: value => some (String.ofList (entry.toList.takeWhile (· != '=')), String.ofList value)⟩

/-! ## Looking at the disk -/

/-- The locations that a path leads through. -/
def passed (disk : Disk) (path : String) : List Location :=
  let next (here : Location) (name : String) : Location :=
    if name = "" ∨ name = "." then here
    else if name = ".." then here.dropLast
    else here ++ [name]
  let here := if Path.isAbsolute path then [] else disk.workingDirectory
  ((Path.names path).foldl (fun locations name =>
    next (locations.headD here) name :: locations) [here]).reverse

/-- The paths of what a run may look at besides the configuration file, as far as the disk tells:
the snapshot, the output directory, and in it the manifest, the units that it lists and those that
are produced. -/
def concerned (config : Config) (disk : Disk) : List String :=
  let manifest := (disk.openDirectory none config.outDir).toOption.bind
    fun here => OutputDirectory.manifest? disk here
  let snapshot := config.snapshot.bind fun path => ((readSnapshot path).run disk).1.toOption
  let units := manifest.elim [] (·.units) ++
    snapshot.elim [] fun s => (generate s.files s.facts.facts).units.map (·.name)
  config.snapshot.toList ++ [config.outDir] ++
    (Manifest.fileName :: units).map (Path.join config.outDir)

/-- Adds what really stands at a location. -/
def observe (disk : Disk) (here : Location) : IO Disk := do
  let path := (← IO.currentDir) / Disk.pathOf here
  if ← path.isDir then return disk.set here .directory
  if ← path.pathExists then return disk.set here (.file (← IO.FS.readBinFile path).toList)
  return disk

/-- The disk as far as a run with the arguments may look at it. -/
def readDisk (args : Arguments) (env : Environment) : IO Disk := do
  let here := (Path.names (← IO.currentDir).toString).filter (· != "")
  let file := Config.filePath args env
  let mut disk : Disk := ⟨[], here⟩
  for above in Config.upwards here do
    for location in passed { disk with workingDirectory := above } file do
      disk ← observe disk location
  let .ok config := Config.load args env disk | return disk
  for _ in [(), ()] do
    for path in concerned config disk do
      for location in passed disk path do
        disk ← observe disk location
  return disk

/-! ## Changing the disk -/

/-- Carries out the changes from one disk to another. -/
def writeChanges (old new : Disk) : IO PUnit := do
  for (here, node) in new.nodes do
    if old.node? here != some node then
      match node with
      | .directory => IO.FS.createDir (Disk.pathOf here)
      | .file bytes => IO.FS.writeBinFile (Disk.pathOf here) ⟨bytes.toArray⟩
  for (here, _) in old.nodes do
    if (new.node? here).isNone then IO.FS.removeFile (Disk.pathOf here)

end HierarchyAccessors.Executable

open HierarchyAccessors Executable in
def main (argv : List String) : IO UInt32 := do
  let env ← readEnvironment
  let disk ← match Arguments.read argv with
    | .ok args => readDisk args env
    | .error _ => pure .fresh
  let (exit, changed) := (program argv env).run disk
  writeChanges disk changed
  IO.print exit.output
  return UInt32.ofNat exit.code
