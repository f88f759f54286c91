import HierarchyAccessors.Entries
import HierarchyAccessors.Text.Quoted

/-!
# Environment variables and guards

An environment lists its variables in the order in which they were first set. A guard remembers
what a variable was before a change and puts that back when it is dropped
(`get?_restore_guardSet`).
-/

namespace HierarchyAccessors

/-- The variables, each once. -/
structure Environment where
  entries : List (String × String)

namespace Environment

def empty : Environment := ⟨[]⟩

def get? (env : Environment) (key : String) : Option String :=
  env.entries.lookup key

def set (env : Environment) (key value : String) : Environment :=
  ⟨Entries.put key value env.entries⟩

def unset (env : Environment) (key : String) : Environment :=
  ⟨Entries.drop key env.entries⟩

/-- Sets the variable to a value, or unsets it. -/
def update (env : Environment) (key : String) : Option String → Environment
  | some value => env.set key value
  | none => env.unset key

theorem get?_set (env : Environment) (key value k : String) :
    (env.set key value).get? k = if k = key then some value else env.get? k := by
  simp [set, get?, Entries.lookup_put]

theorem get?_unset (env : Environment) (key k : String) :
    (env.unset key).get? k = if k = key then none else env.get? k := by
  simp [unset, get?, Entries.lookup_drop]

theorem get?_update (env : Environment) (key : String) (value : Option String) (k : String) :
    (env.update key value).get? k = if k = key then value else env.get? k := by
  cases value with
  | none => exact get?_unset env key k
  | some value => exact get?_set env key value k

end Environment

/-- What a variable was before a change. -/
structure EnvironmentGuard where
  key : String
  before : Option String
deriving DecidableEq

namespace Environment

/-- Changes a variable under a guard. -/
def guardUpdate (env : Environment) (key : String) (value : Option String) :
    EnvironmentGuard × Environment :=
  (⟨key, env.get? key⟩, env.update key value)

/-- Sets a variable under a guard. -/
def guardSet (env : Environment) (key value : String) : EnvironmentGuard × Environment :=
  env.guardUpdate key (some value)

/-- Unsets a variable under a guard. -/
def guardUnset (env : Environment) (key : String) : EnvironmentGuard × Environment :=
  env.guardUpdate key none

/-- Drops a guard. -/
def restore (env : Environment) (guard : EnvironmentGuard) : Environment :=
  env.update guard.key guard.before

theorem get?_restore_guardSet (env : Environment) (key value k : String) :
    ((env.guardSet key value).2.restore (env.guardSet key value).1).get? k = env.get? k := by
  simp only [guardSet, guardUpdate, restore, get?_update]
  split <;> simp_all

end Environment

/-- The guard as it is shown. -/
def EnvironmentGuard.shown (guard : EnvironmentGuard) : String :=
  "EnvVarGuard \x7b key: " ++ Text.quoted guard.key ++ ", had_original: " ++
    toString guard.before.isSome ++ ", .. \x7d"

/-- The lock on the whole environment as it is shown. -/
def Environment.lockShown : String := "EnvVarLock \x7b .. \x7d"

end HierarchyAccessors
