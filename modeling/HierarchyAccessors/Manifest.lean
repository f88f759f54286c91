import HierarchyAccessors.Generation
import HierarchyAccessors.Snapshot.Decode
import HierarchyAccessors.Snapshot.Encode

/-!
# Manifests and cache keys

A manifest records the units that a run produced, next to the units, under the key of the run.
The key is a digest of the snapshot's fingerprint and of the versions of tool and schema, each
followed by a zero byte.
-/

namespace HierarchyAccessors

open Json (Reader Value)
open Json.Reader (record required)

/-- The version of the tool. -/
def toolVersion : String := "0.3.0"

/-- What a run depends on. -/
structure CacheKey where
  fingerprint : String
  tool : String
  schema : String
deriving DecidableEq

namespace CacheKey

/-- The bytes that are digested. -/
def bytes (key : CacheKey) : List UInt8 :=
  [key.fingerprint, key.tool, key.schema].flatMap fun part => part.toUTF8.toList ++ [0]

def digest (key : CacheKey) : String :=
  Digest.hex (Digest.sha256 key.bytes)

end CacheKey

/-- The key of a run of this tool on the snapshot. -/
def Snapshot.cacheKey (snapshot : Snapshot) : String :=
  CacheKey.digest ⟨snapshot.fingerprint, toolVersion, Schema.version⟩

/-- What a run produced. -/
structure Manifest where
  cacheKey : String
  /-- The names of the units, in order. -/
  units : List String
  /-- The diagnostics as they are shown. -/
  diagnostics : List String
deriving DecidableEq

namespace Manifest

/-- The name of the file that holds the manifest. -/
def fileName : String := "manifest.json"

/-- Describes the output of a run with the given key. -/
def ofOutput (cacheKey : String) (output : Output) : Manifest where
  cacheKey := cacheKey
  units := output.units.map (·.name)
  diagnostics := output.diagnostics.map (·.display)

def encode (manifest : Manifest) : Value :=
  .object
    [("cache_key", .string manifest.cacheKey),
      ("units", .array (manifest.units.map .string)),
      ("diagnostics", .array (manifest.diagnostics.map .string))]

/-- The text of the file. -/
def pretty (manifest : Manifest) : String :=
  manifest.encode.pretty

/-- The parts of a manifest that have been read. -/
structure Parts where
  cacheKey : Option String := none
  units : Option (List String) := none
  diagnostics : List String := []

def decode : Reader Manifest := fun depth t => do
  let parts ← record
    [.of "cache_key" Reader.string fun cacheKey (p : Parts) => { p with cacheKey },
      .of "units" (Reader.list Reader.string) fun units p => { p with units },
      .of "diagnostics" (Reader.list Reader.string) fun diagnostics p => { p with diagnostics }]
    {} depth t
  return {
    cacheKey := ← required parts.cacheKey
    units := ← required parts.units
    diagnostics := parts.diagnostics }

/-- Reads the text of the file. -/
def read (text : String) : Except Json.Fault Manifest :=
  Reader.document decode text

end Manifest

end HierarchyAccessors
