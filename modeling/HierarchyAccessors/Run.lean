import HierarchyAccessors.LogFilter
import HierarchyAccessors.OutputDirectory

/-!
# Runs of the tool

A run reads the snapshot, and either finds output of the same key to use again, or generates and
writes. A strict run fails before it writes anything if there is a diagnostic, whether it has just
been recorded or stands in the manifest that would be used again; a dry run never writes.
-/

namespace HierarchyAccessors

/-- What a run did. -/
inductive Outcome
  | written (manifest : Manifest)
  /-- The output of an earlier run is used again. -/
  | cached (manifest : Manifest)
  /-- Nothing was written. -/
  | planned (manifest : Manifest)
deriving DecidableEq

def Outcome.manifest : Outcome → Manifest
  | written manifest => manifest
  | cached manifest => manifest
  | planned manifest => manifest

/-! ## The snapshot -/

/-- The path of the snapshot. -/
def Config.requiredSnapshot (config : Config) : Except RunError String :=
  match config.snapshot with
  | some path => .ok path
  | none => .error .missingSnapshot

/-- The text of the file at a path. -/
def readFileText (path : String) : RunM String := do
  match Path.fileName? path with
  | none => throw (.disk path .invalidInput)
  | some name =>
    let directory := if Path.parent path = "" then "." else Path.parent path
    let here ← RunM.look directory (·.openDirectory none directory)
    RunM.look path (·.readText here name)

/-- The snapshot in the file at a path. -/
def readSnapshot (path : String) : RunM Snapshot := do
  match Snapshot.read (← readFileText path) with
  | .ok snapshot => return snapshot
  | .error refusal => throw (.snapshot path refusal)

/-! ## The run -/

/-- Fails a strict run that met diagnostics. -/
def Config.checkStrict (config : Config) (count : Nat) : Except RunError Unit :=
  if config.strict ∧ 0 < count then .error (.strict count) else .ok ()

/-- The output that can be used again. -/
def Config.reusable (config : Config) (cacheKey : String) : RunM (Option Manifest) :=
  if config.cache ∧ ¬config.dryRun then OutputDirectory.intactManifest config.outDir cacheKey
  else return none

/-- Runs the tool with a configuration. -/
def run (config : Config) : RunM Outcome := do
  let snapshot ← readSnapshot (← config.requiredSnapshot)
  let cacheKey := snapshot.cacheKey
  match ← config.reusable cacheKey with
  | some manifest =>
    config.checkStrict manifest.diagnostics.length
    return .cached manifest
  | none =>
    let output := generate snapshot.files snapshot.facts.facts
    config.checkStrict output.diagnostics.length
    if config.dryRun then return .planned (.ofOutput cacheKey output)
    return .written (← OutputDirectory.store config.outDir cacheKey output)

/-- Loads the configuration and runs the tool. -/
def runArguments (args : Arguments) (env : Environment) : RunM Outcome := do
  match Config.load args env (← get) with
  | .ok config => run config
  | .error e => throw (.config e)

/-! ## The program -/

/-- What a program leaves behind besides the disk. -/
structure Exit where
  code : Nat
  output : String
deriving DecidableEq

/-- What the program writes out and how it ends when it does not get as far as a run; the text of
the help is not part of this library. -/
def ArgumentsRefusal.exit : ArgumentsRefusal → Exit
  | displayHelp => ⟨0, ""⟩
  | displayVersion => ⟨0, "accessorgen " ++ toolVersion ++ "\n"⟩
  | _ => ⟨2, ""⟩

/-- What the program writes out after a run: the units that a dry run has planned. -/
def Outcome.listing : Outcome → String
  | planned manifest => String.join (manifest.units.map (· ++ "\n"))
  | _ => ""

/-- The program, from its arguments to its exit. -/
def program (argv : List String) (env : Environment) : StateM Disk Exit := do
  match Arguments.read argv with
  | .error refusal => return refusal.exit
  | .ok args =>
    match ← (runArguments args env).run with
    | .ok outcome => return ⟨0, outcome.listing⟩
    | .error _ => return ⟨1, ""⟩

end HierarchyAccessors
