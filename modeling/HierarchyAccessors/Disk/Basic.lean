import HierarchyAccessors.Disk.Path
import HierarchyAccessors.Entries

/-!
# Files and directories

A disk maps locations to files and directories. A location is the list of names from the root on;
a path is turned into a location by walking it, from the working directory or from the root. A walk
that is confined to a directory may not leave it, neither by two dots nor from the root.
-/

namespace HierarchyAccessors

/-- Why a disk operation fails. -/
inductive DiskError
  | notFound
  | notADirectory
  | isADirectory
  | alreadyExists
  | invalidInput
  | invalidData
  | invalidFilename
  | permissionDenied
deriving DecidableEq

/-- The names that lead from the root to a file or directory. -/
abbrev Location := List String

/-- What stands at a location. -/
inductive Node
  | file (bytes : List UInt8)
  | directory
deriving DecidableEq

/-- Files and directories by location; the root is always there. -/
structure Disk where
  nodes : List (Location × Node)
  /-- The working directory. -/
  workingDirectory : Location
deriving DecidableEq

namespace Disk

/-- A disk with nothing but an empty working directory, to which no path leads from elsewhere: its
name has a slash in it. -/
def fresh : Disk :=
  let place := ["tmp", "fresh/work"]
  ⟨[(place.dropLast, .directory), (place, .directory)], place⟩

/-- The path of a location from the root. -/
def pathOf (place : Location) : String :=
  "/" ++ "/".intercalate place

def node? (disk : Disk) (place : Location) : Option Node :=
  if place = [] then some .directory else disk.nodes.lookup place

def set (disk : Disk) (place : Location) (node : Node) : Disk :=
  { disk with nodes := Entries.put place node disk.nodes }

def erase (disk : Disk) (place : Location) : Disk :=
  { disk with nodes := Entries.drop place disk.nodes }

theorem node?_set (disk : Disk) {place : Location} (h : place ≠ []) (node : Node) (l : Location) :
    (disk.set place node).node? l = if l = place then some node else disk.node? l := by
  simp only [node?, set, Entries.lookup_put]
  grind

theorem node?_erase (disk : Disk) {place : Location} (h : place ≠ []) (l : Location) :
    (disk.erase place).node? l = if l = place then none else disk.node? l := by
  simp only [node?, erase, Entries.lookup_drop]
  grind

/-! ## Walking -/

/-- Refuses a path that no walk can begin with. -/
def checkPath (path : String) : Except DiskError Unit :=
  if path.toList.contains '\x00' then .error .invalidInput
  else if path = "" then .error .notFound
  else if Path.maxLength ≤ path.utf8ByteSize then .error .invalidFilename
  else .ok ()

/-- The location one name further, which may or may not exist. -/
def step (confined : Option Location) (here : Location) (name : String) :
    Except DiskError Location :=
  if name = "" ∨ name = "." then .ok here
  else if name = ".." then
    if confined = some here then .error .permissionDenied else .ok here.dropLast
  else if Path.maxName < name.utf8ByteSize then .error .invalidFilename
  else .ok (here ++ [name])

/-- Walks along names that must all exist; every name but the last stands for a directory. -/
def walkNames (disk : Disk) (confined : Option Location) (here : Location) :
    List String → Except DiskError Location
  | [] => .ok here
  | name :: names =>
    match disk.node? here with
    | some .directory => do
      let next ← step confined here name
      if (disk.node? next).isNone then throw .notFound
      disk.walkNames confined next names
    | _ => .error .notADirectory

/-- Where a path begins, and the names to walk along. -/
def start (disk : Disk) (confined : Option Location) (path : String) :
    Except DiskError (Location × List String) := do
  checkPath path
  if Path.isAbsolute path then
    if confined.isSome then throw .permissionDenied
    return ([], Path.names path)
  return (confined.getD disk.workingDirectory, Path.names path)

/-- The location of a path that exists. -/
def locate (disk : Disk) (confined : Option Location) (path : String) :
    Except DiskError Location := do
  let (here, names) ← disk.start confined path
  disk.walkNames confined here names

/-- The location of a path whose last name need not exist: its directory and that name, and
whether the path insists on a directory by a slash at its end. None if the path ends in a name
that leads elsewhere; then the directory it leads to exists. -/
def locateLast (disk : Disk) (confined : Option Location) (path : String) :
    Except DiskError (Option (Location × String × Bool)) := do
  let (here, names) ← disk.start confined path
  let kept := (names.reverse.dropWhile (· = "")).reverse
  match kept.getLast? with
  | none =>
    let _ ← disk.walkNames confined here names
    return none
  | some last =>
    if last = "." ∨ last = ".." then
      let _ ← disk.walkNames confined here kept
      return none
    let directory ← disk.walkNames confined here (kept.dropLast ++ [""])
    return some (directory, last, kept.length ≠ names.length)

/-! ## Directories -/

/-- Opens a directory. -/
def openDirectory (disk : Disk) (confined : Option Location) (path : String) :
    Except DiskError Location := do
  let here ← disk.locate confined path
  match disk.node? here with
  | some .directory => return here
  | _ => throw .notADirectory

def isDirectory (disk : Disk) (path : String) : Bool :=
  match disk.openDirectory none path with
  | .ok _ => true
  | .error _ => false

/-- Makes the directory that a path names. -/
def makeDirectory (disk : Disk) (path : String) : Except DiskError Disk := do
  match ← disk.locateLast none path with
  | none => throw .alreadyExists
  | some (directory, name, _) =>
    let here ← step none directory name
    match disk.node? here with
    | none => return disk.set here .directory
    | some _ => throw .alreadyExists

/-- The path and the paths of the directories above it, for as long as the text has a parent;
`fuel` is at least the length of the path. -/
def ancestry : (fuel : Nat) → String → List String
  | 0, _ => []
  | fuel + 1, path =>
    if path = "" then [] else path :: ancestry fuel (Path.parent path)

/-- Makes the first directory of the list after making the others, from the last on, each unless
it exists. A parent is only made if its child could not be made for the want of it. -/
def makeAll (disk : Disk) : List String → Disk × Except DiskError Unit
  | [] => (disk, .ok ())
  | path :: parents =>
    match disk.makeDirectory path with
    | .ok disk => (disk, .ok ())
    | .error .notFound =>
      match disk.makeAll parents with
      | (disk, .error e) => (disk, .error e)
      | (disk, .ok _) =>
        match disk.makeDirectory path with
        | .ok disk => (disk, .ok ())
        | .error e => if disk.isDirectory path then (disk, .ok ()) else (disk, .error e)
    | .error e => if disk.isDirectory path then (disk, .ok ()) else (disk, .error e)

/-- Makes a directory and the directories above it. -/
def makeDirectories (disk : Disk) (path : String) : Disk × Except DiskError Unit :=
  disk.makeAll (ancestry (path.length + 1) path)

/-! ## Files -/

/-- The text of bytes that are well-formed UTF-8. -/
def textOf (bytes : List UInt8) : Except DiskError String :=
  match String.fromUTF8? ⟨bytes.toArray⟩ with
  | some s => .ok s
  | none => .error .invalidData

/-- The bytes of a text. -/
def bytesOf (text : String) : List UInt8 :=
  text.toUTF8.toList

/-- The bytes of the file at a location. -/
def bytesAt (disk : Disk) (here : Location) : Except DiskError (List UInt8) :=
  match disk.node? here with
  | some (.file bytes) => .ok bytes
  | some .directory => .error .isADirectory
  | none => .error .notFound

/-- Reads the text of a file inside a directory. -/
def readText (disk : Disk) (directory : Location) (name : String) : Except DiskError String := do
  textOf (← disk.bytesAt (← disk.locate (some directory) name))

/-- Whether a name inside a directory leads to a file. -/
def isFile (disk : Disk) (directory : Location) (name : String) : Bool :=
  match disk.locate (some directory) name with
  | .ok here => (disk.bytesAt here).toOption.isSome
  | .error _ => false

/-- Writes a file inside a directory, in place of a file of that name. -/
def writeText (disk : Disk) (directory : Location) (name text : String) :
    Except DiskError Disk := do
  match ← disk.locateLast (some directory) name with
  | none => throw .isADirectory
  | some (_, _, true) => throw .isADirectory
  | some (parent, last, false) =>
    let here ← step (some directory) parent last
    match disk.node? here with
    | some .directory => throw .isADirectory
    | _ => return disk.set here (.file (bytesOf text))

/-- Removes a file inside a directory. A path that ends as those of directories do is opened as
one; of any other the parent is opened, and the last name looked up there. -/
def removeFile (disk : Disk) (directory : Location) (path : String) : Except DiskError Disk := do
  let last := (Path.names path).getLast?.getD ""
  if last ∈ ["", ".", ".."] then
    let _ ← disk.openDirectory (some directory) path
    throw .isADirectory
  let parent := Path.parent path
  let here ← if parent = "" then pure directory else disk.openDirectory (some directory) parent
  if last.toList.contains '\x00' then throw .invalidInput
  let place ← step (some directory) here last
  match disk.node? place with
  | none => throw .notFound
  | some .directory => throw .isADirectory
  | some (.file _) => return disk.erase place

/-! ## Whole trees -/

/-- The location that a path names from the working directory, for paths without dots. -/
def plainLocation (disk : Disk) (path : String) : Location :=
  disk.workingDirectory ++ (Path.names path).filter (· ≠ "")

/-- Puts a node at a location, with the directories above it. -/
def put (disk : Disk) (here : Location) (node : Node) : Disk :=
  let above := (List.range here.length).tail.map fun n => here.take n
  let disk := above.foldl
    (fun disk l => if (disk.node? l).isSome then disk else disk.set l .directory) disk
  disk.set here node

/-- Removes a file, or a directory with everything below it. -/
def removeTree (disk : Disk) (here : Location) : Disk :=
  { disk with nodes := disk.nodes.filter fun (l, _) => !here.isPrefixOf l }

/-- Everything below a directory, with the names that lead there. -/
def below (disk : Disk) (here : Location) : List (List String × Node) :=
  disk.nodes.filterMap fun (l, node) =>
    if here.isPrefixOf l ∧ here.length < l.length then some (l.drop here.length, node) else none

end Disk

end HierarchyAccessors
