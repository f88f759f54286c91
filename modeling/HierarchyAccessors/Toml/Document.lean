import HierarchyAccessors.Configuration.Setting
import HierarchyAccessors.Toml.Literal

/-!
# Documents of a configuration file

A document is a list of lines: entries of the form key, equals sign and value, headers of tables
and of arrays of tables, comments and blank lines. A key may be dotted, and then makes the tables on
its way. A table that has been defined may not be defined again, in whichever way
(`Table.define`, `Table.assign`). Two keys have a meaning of their own inside tables: an entry under
`standInKey` stands for the whole table, and `reservedKey` may not be used.
-/

namespace HierarchyAccessors.Toml

/-! ## Keys -/

def isBareKey (c : Char) : Bool :=
  c.isAlphanum || c == '_' || c == '-'

/-- A bare key or a string on one line. -/
def simpleKey? (cs : List Char) : Option (String × List Char) :=
  match cs with
  | '"' :: rest => (basicFrom (rest.length + 1) rest).map fun (s, rest) => (String.ofList s, rest)
  | '\'' :: rest => (literalFrom rest).map fun (s, rest) => (String.ofList s, rest)
  | cs =>
    if cs.head?.any isBareKey then
      some (String.ofList (cs.takeWhile isBareKey), cs.dropWhile isBareKey)
    else none

/-- Keys may have fewer parts than this, and values nest fewer times. -/
def maxNesting : Nat := 80

/-- The parts of a dotted key, at most `count` of them, with blanks around each. -/
def keyParts? : (count : Nat) → List Char → Option (List String × List Char)
  | 0, _ => none
  | count + 1, cs => do
    let (part, cs) ← simpleKey? (cs.dropWhile isBlank)
    match cs.dropWhile isBlank with
    | '.' :: cs => do
      let (parts, cs) ← keyParts? count cs
      return (part :: parts, cs)
    | cs => return ([part], cs)

def key? (cs : List Char) : Option (List String × List Char) :=
  keyParts? (maxNesting - 1) cs

/-- The key of an entry that stands for the table it is in. -/
def standInKey : String := "___figment_value_value"

/-- A key that no table but the document itself may have. -/
def reservedKey : String := "___figment_value_id"

/-! ## Tables -/

/-- What stands under a key. -/
inductive Item
  | value (v : Setting)
  /-- A table: `implicit` if it has only been passed through, and `dotted` if it was made by a
  dotted key. -/
  | table (implicit dotted : Bool) (entries : List (String × Item))
  /-- An array of tables, of which only the last can still be extended. -/
  | tables (last : List (String × Item))

mutual

/-- What an item is as a setting. -/
def Item.setting : Item → Setting
  | .value v => v
  | .table _ _ entries => settingOf entries
  | .tables _ => .other

/-- What a table with the entries is as a setting. -/
def settingOf : List (String × Item) → Setting
  | [] => .other
  | (key, item) :: entries => if key = standInKey then item.setting else settingOf entries

end

/-- The entries of a table, each key once. -/
abbrev Entries := List (String × Item)

/-- A table that can be extended: its entries, and whether a dotted key made it. -/
structure Table where
  dotted : Bool
  entries : Entries

namespace Table

def find? (t : Table) (key : String) : Option Item :=
  t.entries.lookup key

/-- The table with an item under a key, in place of what stood there. -/
def put (t : Table) (key : String) (item : Item) : Table :=
  { t with entries := (key, item) :: t.entries.filter (·.1 != key) }

/-- Changes the table at the end of a path, and makes the tables on the way that are missing. A
dotted path may not pass through a table that has been defined. -/
def change (dotted : Bool) (f : Table → Option Table) : List String → Table → Option Table
  | [], t => f t
  | key :: path, t =>
    match t.find? key with
    | none => do
      let inner ← change dotted f path ⟨dotted, []⟩
      return t.put key (.table true dotted inner.entries)
    | some (.value _) => none
    | some (.tables last) => do
      let inner ← change dotted f path ⟨false, last⟩
      return t.put key (.tables inner.entries)
    | some (.table implicit wasDotted entries) =>
      if dotted && !implicit then none
      else do
        let inner ← change dotted f path ⟨wasDotted, entries⟩
        return t.put key (.table implicit wasDotted inner.entries)

/-- Puts a value under a new key. A key that is dotted must end in a table that a dotted key made,
and one that is not in a table that none made. -/
def assign (path : List String) (key : String) (v : Setting) (t : Table) : Option Table :=
  change true
    (fun inner =>
      if inner.dotted == path.isEmpty then none
      else
        match inner.find? key with
        | some _ => none
        | none => some (inner.put key (.value v)))
    path t

/-- Defines a table under its header. It may have been passed through before. -/
def define (path : List String) (key : String) (t : Table) : Option Table :=
  change false
    (fun inner =>
      match inner.find? key with
      | none => some (inner.put key (.table false false []))
      | some (.table true false entries) => some (inner.put key (.table false false entries))
      | some _ => none)
    path t

/-- Adds a table to an array of tables under its header. -/
def append (path : List String) (key : String) (t : Table) : Option Table :=
  change false
    (fun inner =>
      match inner.find? key with
      | none => some (inner.put key (.tables []))
      | some (.tables _) => some (inner.put key (.tables []))
      | some _ => none)
    path t

end Table

/-- Splits a path into the way to its last key and that key. -/
def splitLast? (path : List String) : Option (List String × String) :=
  path.getLast?.map fun key => (path.dropLast, key)

/-! ## Values -/

/-- The text after a comment. -/
def skipComment : List Char → List Char
  | '#' :: cs => cs.dropWhile isPlain
  | cs => cs

/-- The text after blanks, comments and line ends; `fuel` is at least the length of the text. -/
def skipLines : (fuel : Nat) → List Char → List Char
  | 0, cs => cs
  | fuel + 1, cs =>
    let cs := cs.dropWhile isBlank
    match newline? (skipComment cs) with
    | some rest => skipLines fuel rest
    | none => cs

/-- The items of an array after the opening bracket, and the text after the closing one. -/
def arrayRest? (item : List Char → Option (Setting × List Char)) :
    (fuel : Nat) → List Char → Option (List Char)
  | 0, _ => none
  | fuel + 1, cs =>
    match skipLines (cs.length + 1) cs with
    | ']' :: cs => some cs
    | cs => do
      let (_, cs) ← item cs
      match skipLines (cs.length + 1) cs with
      | ']' :: cs => return cs
      | ',' :: cs => arrayRest? item fuel cs
      | _ => none

/-- The table with the entries of an inline table after the opening brace put into `t`, and the
text after the closing one. -/
def inlineRest? (item : List Char → Option (Setting × List Char)) :
    (fuel : Nat) → Table → List Char → Option (Table × List Char)
  | 0, _, _ => none
  | fuel + 1, t, cs => do
    let (path, cs) ← key? cs
    if reservedKey ∈ path then none
    let (way, key) ← splitLast? path
    match cs with
    | '=' :: cs => do
      let (v, cs) ← item (cs.dropWhile isBlank)
      let t ← t.assign way key v
      match cs.dropWhile isBlank with
      | '\x7d' :: cs => return (t, cs)
      | ',' :: cs => inlineRest? item fuel t cs
      | _ => none
    | _ => none

/-- A value that nests at most `depth` times. -/
def value? : (depth : Nat) → List Char → Option (Setting × List Char)
  | depth, cs =>
    match cs with
    | '[' :: rest =>
      match depth with
      | 0 => none
      | depth + 1 => (arrayRest? (value? depth) (rest.length + 1) rest).map (Setting.other, ·)
    | '\x7b' :: rest =>
      match depth, rest.dropWhile isBlank with
      | 0, _ => none
      | _ + 1, '\x7d' :: rest => some (.other, rest)
      | depth + 1, _ => do
        let (t, rest) ← inlineRest? (value? depth) (rest.length + 1) ⟨false, []⟩ rest
        return (settingOf t.entries, rest)
    | 't' :: 'r' :: 'u' :: 'e' :: rest => some (.switch true, rest)
    | 'f' :: 'a' :: 'l' :: 's' :: 'e' :: rest => some (.switch false, rest)
    | '"' :: _ | '\'' :: _ => (string? cs).map fun (s, rest) => (.text s, rest)
    | cs => (literal? cs).map (Setting.other, ·)

/-! ## Lines -/

/-- The document so far, and the path of the table whose entries follow. -/
structure State where
  root : Table
  current : List String

/-- An entry of the current table. -/
def entry? (s : State) (cs : List Char) : Option (State × List Char) := do
  let (path, cs) ← key? cs
  if reservedKey ∈ (s.current ++ path).tail then none
  let (way, key) ← splitLast? path
  match cs with
  | '=' :: cs => do
    let (v, cs) ← value? (maxNesting - 1) (cs.dropWhile isBlank)
    let root ← s.root.change false (Table.assign way key v) s.current
    return ({ s with root }, cs)
  | _ => none

/-- The header of a table or of an array of tables. -/
def header? (s : State) : List Char → Option (State × List Char)
  | '[' :: '[' :: cs => do
    let (path, cs) ← key? cs
    if reservedKey ∈ path.tail then none
    let (way, key) ← splitLast? path
    match cs with
    | ']' :: ']' :: cs => return (⟨← s.root.append way key, path⟩, cs)
    | _ => none
  | '[' :: cs => do
    let (path, cs) ← key? cs
    if reservedKey ∈ path.tail then none
    let (way, key) ← splitLast? path
    match cs with
    | ']' :: cs => return (⟨← s.root.define way key, path⟩, cs)
    | _ => none
  | _ => none

/-- The lines of a document; `fuel` is at least the length of the text. -/
def lines? : (fuel : Nat) → State → List Char → Option State
  | 0, _, _ => none
  | fuel + 1, s, cs =>
    match cs.dropWhile isBlank with
    | [] => some s
    | c :: cs => do
      let (s, cs) ←
        if c = '#' ∨ c = '\n' ∨ c = '\r' then some (s, c :: cs)
        else if c = '[' then header? s (c :: cs)
        else entry? s (c :: cs)
      let cs := skipComment (cs.dropWhile isBlank)
      match cs with
      | [] => return s
      | cs => do
        let cs ← newline? cs
        lines? fuel s cs

/-- What stands under the keys of a document outside all tables, if the document is well formed. A
byte order mark may come first. -/
def settings? (text : String) : Option (List (String × Setting)) :=
  let cs := match text.toList with
    | '\ufeff' :: cs => cs
    | cs => cs
  (lines? (cs.length + 1) ⟨⟨false, []⟩, []⟩ cs).map fun s =>
    s.root.entries.map fun (key, item) => (key, item.setting)

end HierarchyAccessors.Toml
