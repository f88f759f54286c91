import HierarchyAccessors.Json.Tree

/-!
# Reading typed values out of a tree

A reader takes the depth that arrays and objects may still reach and a tree, and gives a value or
the first fault, met from left to right. Records are objects, or arrays of their fields in order;
tagged values say by one field, or by the first element, which record follows.

A value may be read (`strictFault?`) or passed over (`skipFault?`). Only what is read must keep to
the limits on depth, on magnitude and on surrogate escapes.
-/

namespace HierarchyAccessors.Json

/-! ## Faults inside a value -/

/-- The fault of a container's end. -/
def Ending.fault? : Ending → Option Fault
  | closed => none
  | cut fault => some fault
  | unkeyed none => some .ended
  | unkeyed (some _) => some .malformed

/-- Fails if the container does not end as it should. -/
def Ending.check (ending : Ending) : Except Fault Unit :=
  match ending.fault? with
  | none => .ok ()
  | some fault => .error fault

/-- The fault of a literal that is read. -/
def Quoted.strictFault? (q : Quoted) : Option Fault :=
  match q.decode with
  | .ok _ => none
  | .error fault => some fault

namespace Tree

mutual

/-- The first fault met when the whole value is read, with no more than `depth` containers nested
in one another. -/
def strictFault? (depth : Nat) : Tree → Option Fault
  | null => none
  | bool _ => none
  | number n => if n.fitsDouble then none else some .malformed
  | string q => q.strictFault?
  | array items ending =>
    match depth with
    | 0 => some .malformed
    | depth + 1 => (strictItems? depth items).or ending.fault?
  | object entries ending =>
    match depth with
    | 0 => some .malformed
    | depth + 1 => (strictEntries? depth entries).or ending.fault?
  | broken read _ => some read
  | absent => some .ended

def strictItems? (depth : Nat) : List Tree → Option Fault
  | [] => none
  | t :: ts => (strictFault? depth t).or (strictItems? depth ts)

def strictEntries? (depth : Nat) : List (Quoted × Tree) → Option Fault
  | [] => none
  | (key, t) :: entries =>
    (key.strictFault?.or (strictFault? depth t)).or (strictEntries? depth entries)

end

mutual

/-- The first fault met when the value is passed over. -/
def skipFault? : Tree → Option Fault
  | null => none
  | bool _ => none
  | number _ => none
  | string q => q.skipFault?
  | array items ending => (skipItems? items).or ending.fault?
  | object entries ending => (skipEntries? entries).or ending.fault?
  | broken _ skipped => some skipped
  | absent => some .ended

def skipItems? : List Tree → Option Fault
  | [] => none
  | t :: ts => (skipFault? t).or (skipItems? ts)

def skipEntries? : List (Quoted × Tree) → Option Fault
  | [] => none
  | (key, t) :: entries => (key.skipFault?.or (skipFault? t)).or (skipEntries? entries)

end

/-- The fault of a value of the wrong kind. A scalar is read before it is refused; a container is
refused at its bracket. -/
def misfit : Tree → Fault
  | number n => if n.fitsDouble then .unfit else .malformed
  | string q => q.strictFault?.getD .unfit
  | broken read _ => read
  | absent => .ended
  | _ => .unfit

/-- Reads the whole value, whatever it is. -/
def check (depth : Nat) (t : Tree) : Except Fault Unit :=
  match t.strictFault? depth with
  | none => .ok ()
  | some fault => .error fault

/-- Passes over the value. -/
def skip (t : Tree) : Except Fault Unit :=
  match t.skipFault? with
  | none => .ok ()
  | some fault => .error fault

end Tree

/-! ## Scalars -/

/-- Reads a value that may nest no deeper than the given depth. -/
abbrev Reader (α : Type) := Nat → Tree → Except Fault α

namespace Reader

def string : Reader String := fun _ t =>
  match t with
  | .string q => q.decode
  | t => .error t.misfit

def bool : Reader Bool := fun _ t =>
  match t with
  | .bool b => .ok b
  | t => .error t.misfit

def null : Reader Unit := fun _ t =>
  match t with
  | .null => .ok ()
  | t => .error t.misfit

/-- An integer literal in the closed range. -/
def integer (low high : Int) : Reader Int := fun _ t =>
  match t with
  | .number n =>
    match n.toInt? with
    | some i => if low ≤ i ∧ i ≤ high then .ok i else .error t.misfit
    | none => .error t.misfit
  | t => .error t.misfit

/-- A value, or null in its place. -/
def nullable (value : Reader α) : Reader (Option α) := fun depth t =>
  match t with
  | .null => .ok none
  | t => (value depth t).map some

/-! ## Lists -/

/-- An array of values. -/
def list (item : Reader α) : Reader (List α) := fun depth t =>
  match t, depth with
  | .array _ _, 0 => .error .malformed
  | .array items ending, depth + 1 => do
    let values ← items.mapM (item depth)
    ending.check
    return values
  | t, _ => .error t.misfit

/-! ## Records -/

/-- One field of a record: its name, and how its value adds to what has been read so far. -/
structure Field (σ : Type) where
  name : String
  read : Nat → Tree → σ → Except Fault σ

/-- A field whose value replaces a part of what has been read so far. -/
def Field.of (name : String) (value : Reader α) (set : α → σ → σ) : Field σ :=
  ⟨name, fun depth t s => (value depth t).map (set · s)⟩

/-- The entries of an object. Entries with unknown keys are passed over; a key that occurs again is
refused before its value is looked at. -/
def entries (fields : List (Field σ)) (depth : Nat) (seen : List String) (s : σ) :
    List (Quoted × Tree) → Except Fault σ
  | [] => .ok s
  | (key, t) :: rest => do
    let name ← key.decode
    match fields.find? (·.name == name) with
    | none =>
      t.skip
      entries fields depth seen s rest
    | some field =>
      if name ∈ seen then throw .unfit
      let s ← field.read depth t s
      entries fields depth (name :: seen) s rest

/-- The elements of an array, one for each field in order, with the fields at the end left out or
not. -/
def elements (depth : Nat) (s : σ) (ending : Ending) :
    List (Field σ) → List Tree → Except Fault σ
  | [], [] => (ending.check).map fun _ => s
  | [], _ :: _ => .error .malformed
  | _ :: _, [] => (ending.check).map fun _ => s
  | field :: fields, t :: ts => do
    let s ← field.read depth t s
    elements depth s ending fields ts

/-- A record, read into `s`. -/
def record (fields : List (Field σ)) (s : σ) : Reader σ := fun depth t =>
  match t, depth with
  | .object _ _, 0 => .error .malformed
  | .array _ _, 0 => .error .malformed
  | .object es ending, depth + 1 => do
    let s ← entries fields depth [] s es
    ending.check
    return s
  | .array items ending, depth + 1 => elements depth s ending fields items
  | t, _ => .error t.misfit

/-- The value of a field that may not be missing. -/
def required (value : Option α) : Except Fault α :=
  match value with
  | some a => .ok a
  | none => .error .unfit

/-! ## Tagged values -/

/-- Splits the entries into the tag, read where it stands, and the rest, each read as a whole. -/
def tagEntries (tag : Tree → Except Fault κ) (depth : Nat) (found : Option κ) :
    List (Quoted × Tree) → Except Fault (Option κ × List (Quoted × Tree))
  | [] => .ok (found, [])
  | (key, t) :: rest => do
    let name ← key.decode
    if name = "kind" then
      if found.isSome then throw .unfit
      let k ← tag t
      tagEntries tag depth (some k) rest
    else
      t.check depth
      let (found, others) ← tagEntries tag depth found rest
      return (found, (key, t) :: others)

/-- The tag of a tagged value, and the record without its tag. The whole value is read before its
content is looked at; only the tag itself is judged on the spot. -/
def tagged (tag : Tree → Except Fault κ) : Reader (κ × Tree) := fun depth t =>
  match t, depth with
  | .object _ _, 0 => .error .malformed
  | .array _ _, 0 => .error .malformed
  | .object es ending, depth + 1 => do
    let (found, others) ← tagEntries tag depth none es
    ending.check
    let k ← required found
    return (k, .object others .closed)
  | .array [] ending, _ + 1 => do
    ending.check
    throw .unfit
  | .array (t :: ts) ending, depth + 1 => do
    let k ← tag t
    match Tree.strictItems? depth ts with
    | some fault => throw fault
    | none =>
      ending.check
      return (k, .array ts .closed)
  | t, _ => .error t.misfit

/-- Reads content that has been read as a whole before, so that every fault is one of meaning. -/
def content (value : Except Fault α) : Except Fault α :=
  value.mapError fun _ => .unfit

/-! ## Whole texts -/

/-- Arrays and objects may be nested this deep. -/
def maxDepth : Nat := 127

/-- Reads a text that holds one value and nothing after it. -/
def document (value : Reader α) (text : String) : Except Fault α := do
  let (t, rest) := Tree.ofTokens (tokens text.toList)
  let a ← value maxDepth t
  if rest.isEmpty then return a else throw .malformed

end Reader

end HierarchyAccessors.Json
