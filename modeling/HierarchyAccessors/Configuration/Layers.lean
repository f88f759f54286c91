import HierarchyAccessors.CommandLine
import HierarchyAccessors.Configuration.Spelling
import HierarchyAccessors.Disk.Basic
import HierarchyAccessors.Environment
import HierarchyAccessors.Toml.Document

/-!
# Layered configuration

Every key takes its value from the highest layer that supplies it: the command line, then the
environment, then the configuration file, then the defaults. Only the value that wins is judged,
so a value of the wrong kind does no harm under a higher layer.
-/

namespace HierarchyAccessors

/-- The settings of one run. -/
structure Config where
  /-- The snapshot to read. -/
  snapshot : Option String := none
  /-- The directory for the units and the manifest. -/
  outDir : String := "generated"
  /-- Whether output of the same key is used again. -/
  cache : Bool := false
  /-- Whether a diagnostic is a failure. -/
  strict : Bool := false
  /-- Whether nothing is written. -/
  dryRun : Bool := false
deriving DecidableEq

/-- Why no configuration could be loaded. -/
inductive ConfigError
  /-- The configuration file is not well formed. -/
  | malformedFile
  /-- A value is of the wrong kind for its key. -/
  | wrongKind (key : String)
deriving DecidableEq

/-! ## Layers -/

/-- What a layer supplies, with later entries above earlier ones. -/
abbrev Layer := List (String × Setting)

namespace Layer

/-- The value that the layer supplies under a key. -/
def get? (layer : Layer) (key : String) : Option Setting :=
  layer.reverse.lookup key

/-- What the command line supplies: only what was given, so that a flag which is not raised hides
nothing. -/
def ofArguments (args : Arguments) : Layer :=
  let path (key : String) (value : Option String) : Layer :=
    value.toList.map fun path => (key, .text path)
  let switch (key : String) (raised : Bool) : Layer :=
    if raised then [(key, .switch true)] else []
  path "snapshot" args.snapshot ++ path "out_dir" args.outDir ++ switch "cache" args.cache ++
    switch "strict" args.strict ++ switch "dry_run" args.dryRun

/-- The beginning of the names of environment variables that supply settings. -/
def environmentPrefix : String := "ACCESSORGEN_"

/-- Variables that supply no setting. -/
def reservedNames : List String := ["log", "config_path"]

/-- The parts of the key that a variable is about: the rest of its name in lower case, split at
its dots. -/
def keyParts? (variableName : String) : Option (List String) :=
  let name := (Text.trim variableName.toList).map Char.toLower
  let front := environmentPrefix.toLower.toList
  if front.isPrefixOf name then
    let rest := name.drop front.length
    let parts := ((Text.trim rest).splitOn '.').map String.ofList
    if String.ofList rest ∈ reservedNames ∨ "" ∈ parts then none else some parts
  else none

/-- What a variable supplies. A dotted key supplies a table under its first part. -/
def ofVariable (v : String × String) : Layer :=
  match keyParts? v.1 with
  | some [key] => [(key, .ofText v.2)]
  | some (key :: _) => [(key, .other)]
  | _ => []

/-- What the environment supplies. -/
def ofEnvironment (env : Environment) : Layer :=
  env.entries.flatMap ofVariable

end Layer

/-! ## The configuration file -/

namespace Config

/-- The file in the working directory, or above it, that is read by default. -/
def fileName : String := "accessorgen.toml"

/-- The variable that names another file. -/
def fileVariable : String := "ACCESSORGEN_CONFIG_PATH"

/-- The file to read: the one that the command line names, or the environment, or the default. -/
def filePath (args : Arguments) (env : Environment) : String :=
  (args.configPath.or (env.get? fileVariable)).getD fileName

/-- The directory and the directories above it, innermost first. -/
def upwards (here : Location) : List Location :=
  (List.range (here.length + 1)).map fun n => here.take (here.length - n)

/-- The bytes of the file, if there is one. A relative path is looked for in the working directory
and in every directory above it, each time from the root. -/
def fileBytes? (disk : Disk) (path : String) : Option (List UInt8) :=
  let read (above : Location) : Option (List UInt8) := do
    (Disk.checkPath (Path.join (Disk.pathOf above) path)).toOption
    let here := if Path.isAbsolute path then [] else above
    let found ← (disk.walkNames none here (Path.names path)).toOption
    (disk.bytesAt found).toOption
  (upwards disk.workingDirectory).findSome? read

/-- What the configuration file supplies; nothing if it is missing. -/
def fileLayer (disk : Disk) (path : String) : Except ConfigError Layer :=
  match fileBytes? disk path with
  | none => .ok []
  | some bytes =>
    match Disk.textOf bytes with
    | .error _ => .error .malformedFile
    | .ok text =>
      match Toml.settings? text with
      | none => .error .malformedFile
      | some settings => .ok settings

/-! ## Loading -/

/-- The value of a key in the highest of the layers that supply it. -/
def winner? (layers : List Layer) (key : String) : Option Setting :=
  layers.findSome? (·.get? key)

/-- A switch, or its default. -/
def readSwitch (layers : List Layer) (key : String) (standard : Bool) : Except ConfigError Bool :=
  match winner? layers key with
  | none => .ok standard
  | some (.switch b) => .ok b
  | some _ => .error (.wrongKind key)

/-- A path, or none. -/
def readPath? (layers : List Layer) (key : String) : Except ConfigError (Option String) :=
  match winner? layers key with
  | none => .ok none
  | some (.text s) => .ok (some s)
  | some _ => .error (.wrongKind key)

/-- The configuration that the layers, highest first, make; keys are judged in alphabetical
order. -/
def ofLayers (layers : List Layer) : Except ConfigError Config := do
  let standard : Config := {}
  let cache ← readSwitch layers "cache" standard.cache
  let dryRun ← readSwitch layers "dry_run" standard.dryRun
  let outDir ← readPath? layers "out_dir"
  let snapshot ← readPath? layers "snapshot"
  let strict ← readSwitch layers "strict" standard.strict
  return { snapshot, outDir := outDir.getD standard.outDir, cache, strict, dryRun }

/-- Loads the configuration of a run. -/
def load (args : Arguments) (env : Environment) (disk : Disk) : Except ConfigError Config := do
  let file ← fileLayer disk (filePath args env)
  ofLayers [.ofArguments args, .ofEnvironment env, file]

end Config

end HierarchyAccessors
