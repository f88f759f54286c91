import HierarchyAccessors.Pattern.CharacterSet
import HierarchyAccessors.Text.Alphanumeric

/-!
# Well-formed patterns

A pattern consists of alternatives, each a sequence of atoms, sets, groups and changes of flags; all
but the last of these may be repeated. A change of flags holds up to the end of the group it stands
in. A repetition cannot be counted, for its closing brace would end the field whose value the
pattern is.
-/

namespace HierarchyAccessors.Pattern

/-- Parts of a pattern may nest this many times. -/
def maxDepth : Nat := 250

/-! ## Groups -/

/-- The character may stand in the name of a group; `first` if the name begins with it. -/
def isNameCharacter (first : Bool) (c : Char) : Bool :=
  if first then c == '_' || Text.isLetter c
  else c == '_' || c == '.' || c == '[' || c == ']' || Text.isAlphanumeric c

/-- What follows an opening parenthesis. -/
inductive Opening
  /-- The flags are changed from here on. -/
  | flags (flags : Flags)
  /-- A group, with the flags that hold in it. -/
  | group (flags : Flags)
  /-- A group with a name. -/
  | named (name : String)

/-- The name of a group, up to its closing angle bracket. -/
def name? (cs : List Char) : Option (Opening × List Char) :=
  let name := cs.takeWhile (· != '>')
  match name, cs.dropWhile (· != '>') with
  | c :: others, _ :: rest =>
    if isNameCharacter true c ∧ others.all (isNameCharacter false) then
      some (.named (String.ofList name), rest)
    else none
  | _, _ => none

/-- Flags, up to the colon or parenthesis after them. -/
def flags? (flags : Flags) (cs : List Char) : Option (Opening × List Char) := do
  let isEnd (c : Char) := c == ':' || c == ')'
  let items := cs.takeWhile (!isEnd ·)
  let changed ← flags.change? items
  match cs.dropWhile (!isEnd ·) with
  | ':' :: rest => return (.group changed, rest)
  | ')' :: rest => if items.isEmpty then none else return (.flags changed, rest)
  | _ => none

/-- What an opening parenthesis begins, and the text after it. -/
def opening? (flags : Flags) (cs : List Char) : Option (Opening × List Char) :=
  match flags.skip cs with
  | '?' :: 'P' :: '<' :: cs => name? cs
  | '?' :: '<' :: cs => name? cs
  | '?' :: cs => flags? flags cs
  | cs => some (.group flags, cs)

/-! ## Alternatives -/

/-- What has been read of a pattern or group. -/
structure Body where
  /-- The names of groups so far. -/
  names : List String
  alternatives : Parts := {}
  /-- The items of the last alternative. -/
  items : Parts := {}
  /-- How deeply the last item nests, if it can be repeated. -/
  last : Option Nat := none

namespace Body

def add (body : Body) (depth : Nat) : Body :=
  { body with items := body.items.add depth, last := some depth }

/-- Adds an item that cannot be repeated. -/
def addFlags (body : Body) : Body :=
  { body with items := body.items.add 0, last := none }

/-- Repeats the last item. -/
def repeat? (body : Body) : Option Body :=
  body.last.map fun depth =>
    let items := { body.items with deepest := max body.items.deepest (depth + 1) }
    { body with items, last := some (depth + 1) }

/-- Begins another alternative. -/
def alternate (body : Body) : Body :=
  { names := body.names, alternatives := body.alternatives.add body.items.depth }

def depth (body : Body) : Nat :=
  body.alternate.alternatives.depth

/-- Adds a group that has been read to its end. -/
def addGroup (body inner : Body) : Body :=
  { body with names := inner.names }.add (inner.depth + 1)

end Body

/-- The text after a single atom, which may be a character, a dot, an anchor or an escape. -/
def atom? (flags : Flags) : List Char → Option (List Char)
  | [] => none
  | '.' :: cs => if flags.unicode then some cs else none
  | '^' :: cs | '$' :: cs => some cs
  | '\\' :: cs => do
    let (atom, cs) ← Atom.escape? flags cs
    if atom.standsAlone flags then some cs else none
  | c :: cs => if (Atom.literal c false).standsAlone flags then some cs else none

/-- Reads a pattern or group to its end, and gives the text from there on; `fuel` is more than the
length of the text. -/
def body? (fuel : Nat) (flags : Flags) (body : Body) (cs : List Char) :
    Option (Body × List Char) :=
  match fuel with
  | 0 => none
  | fuel + 1 =>
    match flags.skip cs with
    | [] => some (body, [])
    | ')' :: cs => some (body, ')' :: cs)
    | '|' :: cs => body? fuel flags body.alternate cs
    | '*' :: cs | '+' :: cs | '?' :: cs => do
      let cs := if cs.head? = some '?' then cs.tail else cs
      body? fuel flags (← body.repeat?) cs
    | '\x7b' :: _ => none
    | '[' :: cs => do
      let (depth, cs) ← set? flags cs
      body? fuel flags (body.add depth) cs
    | '(' :: cs => do
      let (opening, cs) ← opening? flags cs
      let group (inside : Flags) (names : List String) : Option (Body × List Char) := do
        let (inner, cs) ← body? fuel inside { names } cs
        match cs with
        | ')' :: cs => body? fuel flags (body.addGroup inner) cs
        | _ => none
      match opening with
      | .flags changed => body? fuel changed body.addFlags cs
      | .group inside => group inside body.names
      | .named name => if name ∈ body.names then none else group flags (name :: body.names)
    | cs => do body? fuel flags (body.add 0) (← atom? flags cs)

/-- Whether a text is a pattern. -/
def isWellFormed (cs : List Char) : Bool :=
  match body? (cs.length + 1) {} { names := [] } cs with
  | some (body, []) => body.depth ≤ maxDepth
  | _ => false

end HierarchyAccessors.Pattern
