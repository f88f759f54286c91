import HierarchyAccessors.Pattern.Atom

/-!
# Sets of characters in a pattern

A set stands in brackets: characters, ranges of them, named classes and further sets, with
operators between such unions. What matters is whether a set is well formed, and how deeply it
nests.
-/

namespace HierarchyAccessors.Pattern

/-- What has been read of a sequence of parts. -/
structure Parts where
  count : Nat := 0
  /-- How deeply the deepest part nests. -/
  deepest : Nat := 0

namespace Parts

def add (parts : Parts) (depth : Nat) : Parts :=
  ⟨parts.count + 1, max parts.deepest depth⟩

/-- How deeply the whole nests: a single part is no level of its own. -/
def depth (parts : Parts) : Nat :=
  if parts.count < 2 then parts.deepest else parts.deepest + 1

end Parts

/-- What has been read of a set. -/
structure SetParts where
  /-- How deeply the part before the last operator nests. -/
  before : Option Nat := none
  union : Parts := {}

namespace SetParts

def add (parts : SetParts) (depth : Nat) : SetParts :=
  { parts with union := parts.union.add depth }

/-- How deeply all that has been read nests. -/
def depth (parts : SetParts) : Nat :=
  match parts.before with
  | none => parts.union.depth
  | some before => max before parts.union.depth + 1

/-- Begins another union after an operator. -/
def operate (parts : SetParts) : SetParts :=
  { before := some parts.depth }

end SetParts

namespace CharacterSet

/-- The names of classes. -/
def classNames : List String :=
  ["alnum", "alpha", "ascii", "blank", "cntrl", "digit", "graph", "lower", "print", "punct",
   "space", "upper", "word", "xdigit"]

/-- A named class after an opening bracket: whether it is negated, and the text after it. -/
def named? : List Char → Option (Bool × List Char)
  | ':' :: cs =>
    let (negated, cs) := if cs.head? = some '^' then (true, cs.tail) else (false, cs)
    match cs.dropWhile (· != ':') with
    | ':' :: ']' :: rest =>
      if classNames.contains (String.ofList (cs.takeWhile (· != ':'))) then some (negated, rest)
      else none
    | _ => none
  | _ => none

/-- Whether a named class may stand in a set, negated or not. -/
def namedStands (flags : Flags) (negated : Bool) : Bool :=
  if flags.unicode then !flags.ignoreCase else !negated

/-- One character of a set, or an escape. -/
def atom? (flags : Flags) : List Char → Option (Atom × List Char)
  | [] => none
  | '\\' :: cs => Atom.escape? flags cs
  | c :: cs => some (.literal c false, cs)

/-- The character that tells whether a hyphen makes a range. White space is passed over to find it,
and so is the sign of a comment, but not the comment. -/
def afterHyphen? (flags : Flags) (cs : List Char) : Option Char :=
  if flags.extended then
    match cs.dropWhile Text.isBlank with
    | '#' :: cs => (cs.dropWhile Text.isBlank).head?
    | cs => cs.head?
  else cs.head?

/-- The text after a character, a range or an escape. -/
def item? (flags : Flags) (cs : List Char) : Option (List Char) := do
  let (first, cs) ← atom? flags cs
  if !first.standsInSet flags then none
  let single := flags.skip cs
  match single with
  | '-' :: cs =>
    let next := afterHyphen? flags cs
    if next = some ']' ∨ next = some '-' then return single
    let (last, cs) ← atom? flags (flags.skip cs)
    match first, last with
    | .literal a _, .literal b _ => if last.standsInSet flags ∧ a ≤ b then return cs else none
    | _, _ => none
  | _ => return single

/-- Hyphens at the beginning of a set, which stand for themselves; `fuel` is at least the length of
the text. -/
def hyphens (flags : Flags) : (fuel : Nat) → SetParts → List Char → SetParts × List Char
  | fuel + 1, parts, '-' :: cs => hyphens flags fuel (parts.add 0) (flags.skip cs)
  | _, parts, cs => (parts, cs)

/-- The beginning of a set after its bracket. A set that is negated holds parts of characters,
unless characters are matched. -/
def opening? (flags : Flags) (cs : List Char) : Option (SetParts × List Char) := do
  let (negated, cs) := match flags.skip cs with
    | '^' :: cs => (true, flags.skip cs)
    | cs => (false, cs)
  if negated ∧ !flags.unicode then none
  let (parts, cs) := hyphens flags cs.length {} cs
  let (parts, cs) := match cs with
    | ']' :: rest => if parts.union.count = 0 then (parts.add 0, rest) else (parts, cs)
    | cs => (parts, cs)
  if parts.union.count ≠ 0 ∧ !(Atom.literal '-' false).standsInSet flags then none
  return (parts, cs)

/-- How deeply a set nests of which the parts have been read, and the text after it; `fuel` is at
least the length of the text. -/
def rest? (flags : Flags) : (fuel : Nat) → SetParts → List Char → Option (Nat × List Char)
  | 0, _, _ => none
  | fuel + 1, parts, cs =>
    match flags.skip cs with
    | [] => none
    | ']' :: cs => some (parts.depth + 1, cs)
    | '&' :: '&' :: cs | '-' :: '-' :: cs | '~' :: '~' :: cs => rest? flags fuel parts.operate cs
    | '[' :: cs =>
      match named? cs with
      | some (negated, cs) =>
        if namedStands flags negated then rest? flags fuel (parts.add 0) cs else none
      | none => do
        let (inner, cs) ← opening? flags cs
        let (depth, cs) ← rest? flags fuel inner cs
        rest? flags fuel (parts.add depth) cs
    | cs => do rest? flags fuel (parts.add 0) (← item? flags cs)

end CharacterSet

/-- How deeply a set nests, after its bracket, and the text after it. -/
def set? (flags : Flags) (cs : List Char) : Option (Nat × List Char) := do
  let (parts, rest) ← CharacterSet.opening? flags cs
  CharacterSet.rest? flags (cs.length + 1) parts rest

end HierarchyAccessors.Pattern
