/-!
# The command line

The arguments of the tool: three options that take a path, four flags, and the requests for help
and for the version. An option takes its value from the same argument, after `=`, or from the next
one; it stays pending until it has been settled, and is settled before the next option or flag
takes effect and at the end.
-/

namespace HierarchyAccessors

/-- What was given on the command line. -/
structure Arguments where
  snapshot : Option String := none
  outDir : Option String := none
  configPath : Option String := none
  cache : Bool := false
  strict : Bool := false
  dryRun : Bool := false
  verbose : Bool := false
deriving DecidableEq

/-- Why arguments are not accepted; help and version end the run in the same way. -/
inductive ArgumentsRefusal
  /-- An option is without its value. -/
  | invalidValue
  /-- An option or a flag is given twice. -/
  | argumentConflict
  /-- A flag is given a value. -/
  | tooManyValues
  | unknownArgument
  | displayHelp
  | displayVersion
deriving DecidableEq

namespace Arguments

/-- The options that take a path. -/
inductive PathOption
  | snapshot
  | outDir
  | configPath
deriving DecidableEq

inductive Flag
  | cache
  | strict
  | dryRun
  | verbose
  | help
  | version
deriving DecidableEq

/-- The path given for an option. -/
def path? (args : Arguments) : PathOption → Option String
  | .snapshot => args.snapshot
  | .outDir => args.outDir
  | .configPath => args.configPath

def setPath (args : Arguments) (path : String) : PathOption → Arguments
  | .snapshot => { args with snapshot := some path }
  | .outDir => { args with outDir := some path }
  | .configPath => { args with configPath := some path }

/-- Settles an option with its value. -/
def settle (args : Arguments) (option : PathOption) (value : Option String) :
    Except ArgumentsRefusal Arguments :=
  match value with
  | none => .error .invalidValue
  | some path =>
    if (args.path? option).isSome then .error .argumentConflict
    else .ok (args.setPath path option)

/-- Raises a flag. -/
def raise (args : Arguments) : Flag → Except ArgumentsRefusal Arguments
  | .cache => if args.cache then .error .argumentConflict else .ok { args with cache := true }
  | .strict => if args.strict then .error .argumentConflict else .ok { args with strict := true }
  | .dryRun => if args.dryRun then .error .argumentConflict else .ok { args with dryRun := true }
  | .verbose => if args.verbose then .error .argumentConflict else .ok { args with verbose := true }
  | .help => .error .displayHelp
  | .version => .error .displayVersion

/-! ## Reading -/

/-- An option that has not been settled, with the value it has so far. -/
abbrev Pending := Option (PathOption × Option String)

def settlePending (args : Arguments) : Pending → Except ArgumentsRefusal Arguments
  | none => .ok args
  | some (option, value) => args.settle option value

/-- What a long name stands for. -/
inductive LongName
  | path (option : PathOption)
  | flag (flag : Flag)

def longName? : String → Option LongName
  | "snapshot" => some (.path .snapshot)
  | "out-dir" => some (.path .outDir)
  | "config-path" => some (.path .configPath)
  | "cache" => some (.flag .cache)
  | "strict" => some (.flag .strict)
  | "dry-run" => some (.flag .dryRun)
  | "verbose" => some (.flag .verbose)
  | "help" => some (.flag .help)
  | "version" => some (.flag .version)
  | _ => none

def shortName? : Char → Option Flag
  | 'v' => some .verbose
  | 'h' => some .help
  | 'V' => some .version
  | _ => none

/-- Splits a long argument at its first `=`. -/
def splitValue (cs : List Char) : String × Option String :=
  match cs.dropWhile (· != '=') with
  | [] => (String.ofList cs, none)
  | _ :: value => (String.ofList (cs.takeWhile (· != '=')), some (String.ofList value))

/-- An argument that begins with two dashes. -/
def readLong (args : Arguments) (pending : Pending) (cs : List Char) :
    Except ArgumentsRefusal (Arguments × Pending) :=
  let (name, value) := splitValue cs
  match longName? name, value with
  | none, _ => .error .unknownArgument
  | some (.flag _), some _ => .error .tooManyValues
  | some (.flag flag), none => do
    let args ← args.settlePending pending
    return (← args.raise flag, none)
  | some (.path option), some value => do
    let args ← args.settlePending pending
    return (← args.settle option (some value), none)
  | some (.path option), none => do
    let args ← args.settlePending pending
    return (args, some (option, none))

/-- The letters after a single dash. -/
def readShort (args : Arguments) (pending : Pending) :
    List Char → Except ArgumentsRefusal (Arguments × Pending)
  | [] => .ok (args, pending)
  | c :: cs =>
    match shortName? c with
    | none => .error .unknownArgument
    | some flag => do
      let args ← args.settlePending pending
      readShort (← args.raise flag) none cs

/-- The arguments from the left on. -/
def readFrom (args : Arguments) (pending : Pending) :
    List String → Except ArgumentsRefusal Arguments
  | [] => args.settlePending pending
  | argument :: rest =>
    match argument.toList with
    | ['-', '-'] => if rest.isEmpty then args.settlePending pending else .error .unknownArgument
    | '-' :: '-' :: cs => do
      let (args, pending) ← readLong args pending cs
      readFrom args pending rest
    | '-' :: c :: cs => do
      let (args, pending) ← readShort args pending (c :: cs)
      readFrom args pending rest
    | _ =>
      match pending with
      | some (option, none) => readFrom args (some (option, some argument)) rest
      | _ => .error .unknownArgument

/-- Reads the arguments after the name of the program. -/
def read (argv : List String) : Except ArgumentsRefusal Arguments :=
  readFrom {} none argv

end Arguments

end HierarchyAccessors
